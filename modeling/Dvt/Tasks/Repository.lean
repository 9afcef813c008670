import Dvt.Library.Table
import Dvt.Tasks.DateTime
import Dvt.Tasks.Policies
import Mathlib.Data.Prod.Lex

/-! The SQL repository: the `tasks` table, the outbox, and one function per transaction. -/

namespace Dvt.Tasks

open Library

structure TaskExecution where
  taskId : String
  userId : String
  organizationId : String
  projectId : String
  mode : PipelineExecutionMode
  source : TaskSource
  status : TaskExecutionStatus
  forceExec : Bool := false
  queuedAt : DateTime
  scheduleRunId : Option String := none
  scheduleAttempt : Option ℤ := none
  assignedWorkerId : Option String := none
  terminationReason : Option StoredReason := none
  message : Option String := none
  updatedAt : Option DateTime := none
  deriving DecidableEq

structure TaskRecord where
  taskId : String
  mode : PipelineExecutionMode
  forceExec : Bool
  status : TaskExecutionStatus
  terminationReason : Option StoredReason := none
  source : TaskSource
  message : Option String := none
  assignedWorkerId : Option String := none
  queuedAt : DateTime
  startedAt : Option DateTime := none
  finishedAt : Option DateTime := none
  updatedAt : DateTime
  userId : String
  organizationId : String
  projectId : String
  scheduleRunId : Option String
  scheduleAttempt : Option ℤ
  deriving DecidableEq

def taskSchema : Schema TaskRecord where
  Columns := String × Option String × Option ℤ
  columns r := (r.taskId, r.scheduleRunId, r.scheduleAttempt)
  clash a b := a.1 = b.1 ∨ (a.2.1 ≠ none ∧ a.2.2 ≠ none) ∧ (b.2.1 ≠ none ∧ b.2.2 ≠ none) ∧ a.2 = b.2
  symm := by
    rintro a b (h | ⟨ha, hb, h⟩)
    · exact .inl h.symm
    · exact .inr ⟨hb, ha, h.symm⟩
  decClash _ _ := inferInstanceAs (Decidable (_ ∨ _))

structure TaskPayload where
  taskId : String
  content : String
  deriving DecidableEq

inductive DispatchStatus
  | pending | published | cancelled
  deriving DecidableEq, Repr

structure TaskDispatchOutboxRecord where
  id : String
  taskId : String
  payload : TaskPayload
  status : DispatchStatus := .pending
  createdAt : DateTime
  publishedAt : Option DateTime := none
  attempts : ℕ := 0
  lastError : Option String := none
  deriving DecidableEq

def outboxSchema : Schema TaskDispatchOutboxRecord := .uniques fun r => (r.id, r.taskId)

structure Store where
  tasks : Table taskSchema
  outbox : Table outboxSchema

def Store.empty : Store := ⟨.empty, .empty⟩

lemma taskId_isKey : Table.IsKey taskSchema TaskRecord.taskId := fun _ _ h => .inl h

lemma dispatchTask_isKey : Table.IsKey outboxSchema TaskDispatchOutboxRecord.taskId :=
  fun _ _ h => .inr h

namespace Store

def task? (s : Store) (taskId : String) : Option TaskRecord :=
  s.tasks.lookup TaskRecord.taskId taskId

def dispatch? (s : Store) (taskId : String) : Option TaskDispatchOutboxRecord :=
  s.outbox.lookup TaskDispatchOutboxRecord.taskId taskId

def writeTask (s : Store) (taskId : String) (f : TaskRecord → TaskRecord)
    (hf : ∀ r, taskSchema.columns (f r) = taskSchema.columns r) : Store :=
  { s with tasks := s.tasks.update (fun r => r.taskId = taskId) f hf }

end Store

inductive RepositoryError
  | integrity
  | unsupportedTerminalStatus (status : TaskExecutionStatus)
  deriving DecidableEq, Repr

def RepositoryError.text : RepositoryError → String
  | .integrity => "IntegrityError"
  | .unsupportedTerminalStatus status => "Unsupported terminal status: " ++ status.value

def toEntity (task : TaskRecord) : TaskExecution where
  taskId := task.taskId
  userId := task.userId
  organizationId := task.organizationId
  projectId := task.projectId
  mode := task.mode
  source := task.source
  status := task.status
  forceExec := task.forceExec
  queuedAt := task.queuedAt
  scheduleRunId := task.scheduleRunId
  scheduleAttempt := task.scheduleAttempt
  assignedWorkerId := task.assignedWorkerId
  terminationReason := task.terminationReason
  message := task.message
  updatedAt := some task.updatedAt

def newTask (now : DateTime) (status : TaskExecutionStatus) (execution : TaskExecution) :
    TaskRecord where
  taskId := execution.taskId
  userId := execution.userId
  organizationId := execution.organizationId
  projectId := execution.projectId
  mode := execution.mode
  forceExec := execution.forceExec
  source := execution.source
  status := status
  queuedAt := execution.queuedAt
  scheduleRunId := execution.scheduleRunId
  scheduleAttempt := execution.scheduleAttempt
  updatedAt := now

def insertTask (s : Store) (task : TaskRecord) : Except RepositoryError Store :=
  if task.scheduleAttempt.any (· < 1) then .error .integrity
  else
    match s.tasks.insert task with
    | none => .error .integrity
    | some tasks => .ok { s with tasks }

def createPending (now : DateTime) (execution : TaskExecution) (s : Store) :
    Except RepositoryError (TaskExecution × Store) :=
  match s.task? execution.taskId with
  | some existing => .ok (toEntity existing, s)
  | none =>
    let task := newTask now .pending execution
    match insertTask s task with
    | .error e => .error e
    | .ok s' => .ok (toEntity task, s')

structure EnqueueTaskResult where
  execution : TaskExecution
  superseded : List TaskExecution := []
  deriving DecidableEq

def freshness (task : TaskRecord) : DateTime ×ₗ String := toLex (task.queuedAt, task.taskId)

def runnableRoot (projectId : String) (task : TaskRecord) : Bool :=
  task.projectId = projectId ∧ task.source ∈ rootExecutionSources ∧
    task.status ∈ supersedableStatuses

def candidates (s : Store) (projectId : String) : List TaskRecord :=
  (s.tasks.select (runnableRoot projectId)).insertionSort fun a b => freshness b ≤ freshness a

def supersede (now : DateTime) (task : TaskRecord) : TaskRecord :=
  { task with
    status := .cancelled
    terminationReason := some (.known .supersededByNewerExecution)
    finishedAt := some now
    updatedAt := now }

def cancelDispatch (dispatch : TaskDispatchOutboxRecord) : TaskDispatchOutboxRecord :=
  { dispatch with status := .cancelled }

def supersedeAll (now : DateTime) (staleIds : List String) (s : Store) : Store where
  tasks := s.tasks.update (fun r => r.taskId ∈ staleIds) (supersede now) fun _ => rfl
  outbox := s.outbox.update (fun d => d.taskId ∈ staleIds ∧ d.publishedAt = none) cancelDispatch
    fun _ => rfl

def coalesceRootExecutions (now : DateTime) (current : TaskRecord) (s : Store) :
    TaskRecord × List TaskExecution × Store :=
  match candidates s current.projectId with
  | [] => (current, [], s)
  | _ :: stale =>
    if stale = [] then (current, [], s)
    else
      let superseded := stale.map toEntity
      let staleIds := stale.map TaskRecord.taskId
      (if current.taskId ∈ staleIds then supersede now current else current, superseded,
        supersedeAll now staleIds s)

/-- A call of `enqueue_with_dispatch`, with the clock and the id of the dispatch. -/
structure Enqueue extends TaskExecution where
  now : DateTime
  dispatchId : String
  payload : TaskPayload

def Enqueue.dispatch (job : Enqueue) : TaskDispatchOutboxRecord where
  id := job.dispatchId
  taskId := job.taskId
  payload := job.payload
  createdAt := job.now

def dispatchQueued (job : Enqueue) (task : TaskRecord) (s : Store) :
    Except RepositoryError (EnqueueTaskResult × Store) :=
  let (task, superseded, s) :=
    if job.source ∈ rootExecutionSources then coalesceRootExecutions job.now task s
    else (task, [], s)
  if job.source ∈ rootExecutionSources ∧ task.status = .cancelled then
    .ok (⟨toEntity task, superseded⟩, s)
  else
    match s.dispatch? job.taskId with
    | some _ => .ok (⟨toEntity task, superseded⟩, s)
    | none =>
      match s.outbox.insert job.dispatch with
      | none => .error .integrity
      | some outbox => .ok (⟨toEntity task, superseded⟩, { s with outbox })

def markQueued (now : DateTime) (task : TaskRecord) : TaskRecord :=
  { task with status := .queued, updatedAt := now }

def enqueueWithDispatch (job : Enqueue) (s : Store) :
    Except RepositoryError (EnqueueTaskResult × Store) :=
  match s.task? job.taskId with
  | none =>
    let task := newTask job.now .queued job.toTaskExecution
    match insertTask s task with
    | .error e => .error e
    | .ok s' => dispatchQueued job task s'
  | some task =>
    if task.status = .pending then
      dispatchQueued job (markQueued job.now task)
        (s.writeTask job.taskId (markQueued job.now) fun _ => rfl)
    else if task.status ≠ .queued then .ok (⟨toEntity task, []⟩, s)
    else dispatchQueued job task s

def claimable (taskId : String) (task : TaskRecord) : Bool :=
  task.taskId = taskId ∧ task.status ∈ claimableStatuses

def markStarted (now : DateTime) (workerId : String) (task : TaskRecord) : TaskRecord :=
  { task with
    status := .started
    assignedWorkerId := some workerId
    startedAt := some now
    updatedAt := now }

def claim (now : DateTime) (taskId workerId : String) (s : Store) : Bool × Store :=
  (!(s.tasks.select (claimable taskId)).isEmpty,
    { s with tasks := s.tasks.update (claimable taskId) (markStarted now workerId) fun _ => rfl })

def startedBy (taskId workerId : String) (task : TaskRecord) : Bool :=
  task.taskId = taskId ∧ task.status = .started ∧ task.assignedWorkerId = some workerId

def setRunning (now : DateTime) (task : TaskRecord) : TaskRecord :=
  { task with status := .running, updatedAt := now }

def markRunning (now : DateTime) (taskId workerId : String) (s : Store) : Bool × Store :=
  (!(s.tasks.select (startedBy taskId workerId)).isEmpty,
    { s with tasks := s.tasks.update (startedBy taskId workerId) (setRunning now) fun _ => rfl })

def settle (now : DateTime) (status : TaskExecutionStatus) (reason : Option StoredReason)
    (message : Option String) (task : TaskRecord) : TaskRecord :=
  { task with
    status := status
    terminationReason := reason
    finishedAt := some now
    updatedAt := now
    message := message.or task.message }

def finalizeReason (current requested : Option StoredReason) : Option StoredReason :=
  if requested = none then current else chooseTerminationReason current requested false

def finalizeAllowed (workerId : String) (status : TaskExecutionStatus)
    (reason : Option StoredReason) (task : TaskRecord) : Bool :=
  task.assignedWorkerId = some workerId ∧ task.status ∉ terminalStatuses ∧
    (status = .success → task.status = .started ∨ task.status = .running) ∧
    (status ≠ .success →
      task.status = .started ∨ task.status = .running ∨ task.status = .cancelRequested) ∧
    (finalizeReason task.terminationReason reason ≠ none → status ≠ .success →
      status = terminalStatusForTerminationReason (finalizeReason task.terminationReason reason))

def finalize (now : DateTime) (taskId workerId : String) (status : TaskExecutionStatus)
    (message : Option String) (reason : Option StoredReason) (s : Store) :
    Except RepositoryError (Bool × Store) :=
  if status ∉ terminalStatuses then .error (.unsupportedTerminalStatus status)
  else
    match s.task? taskId with
    | none => .ok (false, s)
    | some task =>
      if finalizeAllowed workerId status reason task then
        let effectiveReason := finalizeReason task.terminationReason reason
        .ok (true, s.writeTask taskId
          (settle now status (effectiveReason.or task.terminationReason) message) fun _ => rfl)
      else .ok (false, s)

def reconcilable (reason : Option StoredReason) (task : TaskRecord) : Bool :=
  task.status ∉ terminalStatuses ∧ (task.status = .cancelRequested ∨
      (task.status = .started ∨ task.status = .running) ∧
        chooseTerminationReason task.terminationReason reason false = some (.known .workerLost))

def finalizeReconciled (now : DateTime) (taskId : String) (reason : Option StoredReason)
    (message : Option String) (s : Store) : Option TaskExecution × Store :=
  match s.task? taskId with
  | none => (none, s)
  | some task =>
    if reconcilable reason task then
      let effectiveReason := chooseTerminationReason task.terminationReason reason false
      let close := settle now (terminalStatusForTerminationReason effectiveReason) effectiveReason message
      (some (toEntity (close task)), s.writeTask taskId close fun _ => rfl)
    else (none, s)

def failPending (now : DateTime) (taskId : String) (reason : Option StoredReason)
    (message : Option String) (s : Store) : Option TaskExecution × Store :=
  match s.task? taskId with
  | none => (none, s)
  | some task =>
    if reason ≠ none ∧ task.status = .error ∧ task.terminationReason = reason then
      (some (toEntity task), s)
    else if task.status ≠ .pending then (none, s)
    else
      let fail := settle now .error (reason.or task.terminationReason) message
      (some (toEntity (fail task)), s.writeTask taskId fail fun _ => rfl)

def cancelEarly (now : DateTime) (reason : Option StoredReason) (task : TaskRecord) : TaskRecord :=
  { task with
    status := .cancelled
    finishedAt := some now
    terminationReason := reason
    updatedAt := now }

def markCancelRequested (now : DateTime) (reason : Option StoredReason) (task : TaskRecord) :
    TaskRecord :=
  { task with status := .cancelRequested, terminationReason := reason, updatedAt := now }

def requestStop (now : DateTime) (taskId : String) (reason : StoredReason) (hard : Bool)
    (s : Store) : Option TaskExecution × Store :=
  match s.task? taskId with
  | none => (none, s)
  | some task =>
    if task.status ∈ terminalStatuses then (some (toEntity task), s)
    else
      let effectiveReason := chooseTerminationReason task.terminationReason (some reason) hard
      if task.status = .pending ∨ task.status = .queued then
        let s' := s.writeTask taskId (cancelEarly now effectiveReason) fun _ => rfl
        (some (toEntity (cancelEarly now effectiveReason task)),
          { s' with
            outbox := s'.outbox.update (fun d => d.taskId = taskId ∧ d.publishedAt = none)
              cancelDispatch fun _ => rfl })
      else
        (some (toEntity (markCancelRequested now effectiveReason task)),
          s.writeTask taskId (markCancelRequested now effectiveReason) fun _ => rfl)

def listForReconciliation (statuses : List TaskExecutionStatus) (limit : ℕ) (s : Store) :
    List TaskExecution :=
  (((s.tasks.select fun r => r.status ∈ statuses).insertionSort fun a b =>
    toLex (a.updatedAt, a.taskId) ≤ toLex (b.updatedAt, b.taskId)).take limit).map toEntity

/-- NULL sorts last. -/
def startedKey (task : TaskRecord) : WithTop DateTime := task.startedAt

def listWorkerOwnedActive (limit : ℕ) (s : Store) : List TaskExecution :=
  (((s.tasks.select fun r =>
    r.status ∈ workerOwnedActiveStatuses ∧ r.assignedWorkerId ≠ none).insertionSort fun a b =>
      toLex (startedKey a, a.taskId) ≤ toLex (startedKey b, b.taskId)).take limit).map toEntity

structure DispatchOutboxItem where
  dispatchId : String
  taskId : String
  payload : TaskPayload
  createdAt : DateTime
  publishedAt : Option DateTime
  attempts : ℕ
  deriving DecidableEq

def toDispatch (record : TaskDispatchOutboxRecord) : DispatchOutboxItem where
  dispatchId := record.id
  taskId := record.taskId
  payload := record.payload
  createdAt := record.createdAt
  publishedAt := record.publishedAt
  attempts := record.attempts

def pendingDispatches (limit : ℕ) (s : Store) : List DispatchOutboxItem :=
  (((s.outbox.select fun d => d.status = .pending ∧ d.publishedAt = none).insertionSort
    fun a b => a.createdAt ≤ b.createdAt).take limit).map toDispatch

def markDispatchPublished (now : DateTime) (dispatchId : String) (s : Store) : Store :=
  { s with
    outbox := s.outbox.update (fun d => d.id = dispatchId ∧ d.publishedAt = none)
      (fun d => { d with status := .published, publishedAt := some now, lastError := none })
      fun _ => rfl }

def recordDispatchFailure (dispatchId error : String) (s : Store) : Store :=
  { s with
    outbox := s.outbox.update (fun d => d.id = dispatchId)
      (fun d => { d with
        attempts := d.attempts + 1
        lastError := some (String.ofList (error.toList.take 1000)) })
      fun _ => rfl }

inductive Transaction
  | createPending (now : DateTime) (execution : TaskExecution)
  | enqueueWithDispatch (job : Enqueue)
  | claim (now : DateTime) (taskId workerId : String)
  | markRunning (now : DateTime) (taskId workerId : String)
  | finalize (now : DateTime) (taskId workerId : String) (status : TaskExecutionStatus)
      (message : Option String) (reason : Option StoredReason)
  | finalizeReconciled (now : DateTime) (taskId : String) (reason : Option StoredReason)
      (message : Option String)
  | failPending (now : DateTime) (taskId : String) (reason : Option StoredReason)
      (message : Option String)
  | requestStop (now : DateTime) (taskId : String) (reason : StoredReason) (hard : Bool)
  | markDispatchPublished (now : DateTime) (dispatchId : String)
  | recordDispatchFailure (dispatchId error : String)

def committed {α : Type} (s : Store) : Except RepositoryError (α × Store) → Store
  | .ok (_, s') => s'
  | .error _ => s

def Transaction.apply (s : Store) : Transaction → Store
  | .createPending now execution => committed s (Tasks.createPending now execution s)
  | .enqueueWithDispatch job => committed s (Tasks.enqueueWithDispatch job s)
  | .claim now taskId workerId => (Tasks.claim now taskId workerId s).2
  | .markRunning now taskId workerId => (Tasks.markRunning now taskId workerId s).2
  | .finalize now taskId workerId status message reason =>
    committed s (Tasks.finalize now taskId workerId status message reason s)
  | .finalizeReconciled now taskId reason message =>
    (Tasks.finalizeReconciled now taskId reason message s).2
  | .failPending now taskId reason message =>
    (Tasks.failPending now taskId reason message s).2
  | .requestStop now taskId reason hard => (Tasks.requestStop now taskId reason hard s).2
  | .markDispatchPublished now dispatchId => Tasks.markDispatchPublished now dispatchId s
  | .recordDispatchFailure dispatchId error =>
    Tasks.recordDispatchFailure dispatchId error s

end Dvt.Tasks
