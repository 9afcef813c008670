import Dvt.Scheduling.Attempts

/-! Any number of schedulers on one run, interleaved with all that is done to its tasks. -/

namespace Dvt.Scheduling

open Library Tasks

/-- `inspecting` and `recording` hold the lock on the run's row. -/
inductive Process
  | idle
  | inspecting (now : ℤ) (task : Option TaskRecord)
  | enqueueing (attemptNumber : ℕ)
  | creating (attemptNumber : ℕ)
  | admitting (attemptNumber : ℕ) (execution : TaskExecution)
  | rejecting (attemptNumber : ℕ) (taskId error : String)
  | marking (attemptNumber : ℕ) (taskId : String)
  | failing (attemptNumber : ℕ) (error : String)
  | recording (attemptNumber : ℕ) (error : String) (task : Option TaskRecord)
  deriving DecidableEq

structure State where
  run : ProjectScheduleRunRecord
  store : Store
  lockedBy : Option ℕ := none
  processes : ℕ → Process := fun _ => .idle

/-- A call to another component; it may raise before or after it took effect. -/
inductive CallOutcome
  | returns
  | raisesBefore (error : String)
  | raisesAfter (error : String)
  deriving DecidableEq

inductive Event
  | reconcile (p : ℕ) (now : ℤ) (disabled : Bool)
  | commitInspection (p : ℕ)
  | checkAttempt (p : ℕ) (disabled : Bool)
  | createPending (p : ℕ) (now : DateTime) (execution : TaskExecution) (outcome : CallOutcome)
  | enqueueTask (p : ℕ) (now : DateTime) (dispatchId : String) (payload : TaskPayload)
      (outcome : CallOutcome)
  | failPending (p : ℕ) (now : DateTime) (applied : Bool)
  | markRunning (p : ℕ) (now : ℤ) (outcome : CallOutcome)
  | recordFailure (p : ℕ)
  | commitFailure (p : ℕ) (now : ℤ)
  | skipLocked (p : ℕ)
  | abort (p : ℕ)
  | cancelActiveRun (now : ℤ) (reason : String)
  | task (transaction : Transaction)

def State.goto (s : State) (p : ℕ) (process : Process) : State :=
  { s with processes := Function.update s.processes p process }

@[simp] lemma run_goto (s : State) (p : ℕ) (process : Process) : (s.goto p process).run = s.run := rfl

@[simp] lemma store_goto (s : State) (p : ℕ) (process : Process) :
    (s.goto p process).store = s.store := rfl

lemma processes_goto (s : State) (p q : ℕ) (process : Process) :
    (s.goto p process).processes q = if q = p then process else s.processes q :=
  Function.update_apply ..

def attemptExecution (run : ProjectScheduleRunRecord) (attemptNumber : ℕ)
    (execution : TaskExecution) : TaskExecution :=
  { execution with
    status := .pending
    source := .scheduler
    mode := run.mode
    forceExec := run.forceExec
    scheduleRunId := some run.id
    scheduleAttempt := some (attemptNumber : ℤ) }

/-- The transaction would insert a row for the run, as only `_enqueue_attempt` does. -/
def opensAttempt (store : Store) (runId : String) : Transaction → Bool
  | .createPending _ execution | .enqueueWithDispatch ⟨execution, _, _, _⟩ =>
    execution.scheduleRunId = some runId ∧ store.task? execution.taskId = none
  | _ => false

section

variable (s : State) (p : ℕ)

/-- The locked read of `_reconcile_run` up to its commit or its read of the task. The schedule is read
in a statement of its own: `disabled` is what that saw. -/
def reconcileRun (now : ℤ) (disabled : Bool) : State :=
  if s.processes p ≠ .idle ∨ s.lockedBy ≠ none ∨ s.run.finishedAt ≠ none then s
  else if disabled then
    { s with run := finishRun s.run .cancelled now (some "Schedule disabled or deleted") }
  else if retryDue s.run now then
    { s with run := startAttempt s.run now }.goto p (.enqueueing (s.run.attemptNumber + 1))
  else if s.run.status = .starting ∨ s.run.status = .running then
    { s with lockedBy := some p }.goto p
      (.inspecting now (getAttemptTask s.store s.run.id s.run.attemptNumber))
  else s

def createAttemptTask (attemptNumber : ℕ) (now : DateTime) (execution : TaskExecution)
    (outcome : CallOutcome) : State :=
  let execution := attemptExecution s.run attemptNumber execution
  -- `uuid4`
  if s.store.task? execution.taskId ≠ none then s
  else
    match outcome with
    | .raisesBefore error => s.goto p (.failing attemptNumber error)
    | .raisesAfter error =>
      { s with store := (Transaction.createPending now execution).apply s.store }.goto p
        (.failing attemptNumber error)
    | .returns =>
      match Tasks.createPending now execution s.store with
      | .error e => s.goto p (.failing attemptNumber e.text)
      | .ok (_, store) => { s with store }.goto p (.admitting attemptNumber execution)

def enqueueAttemptTask (attemptNumber : ℕ) (job : Enqueue) (outcome : CallOutcome) : State :=
  match outcome with
  | .raisesBefore error => s.goto p (.rejecting attemptNumber job.taskId error)
  | .raisesAfter error =>
    { s with store := (Transaction.enqueueWithDispatch job).apply s.store }.goto p
      (.rejecting attemptNumber job.taskId error)
  | .returns =>
    match enqueueWithDispatch job s.store with
    | .error e => s.goto p (.rejecting attemptNumber job.taskId e.text)
    | .ok (_, store) => { s with store }.goto p (.marking attemptNumber job.taskId)

/-- The row read with `FOR UPDATE SKIP LOCKED` is there, unfinished and at the attempt. -/
def ownsAttempt (attemptNumber : ℕ) : Bool :=
  s.lockedBy = none ∧ s.run.finishedAt = none ∧ s.run.attemptNumber = attemptNumber

def markAttemptRunning (attemptNumber : ℕ) (taskId : String) (now : ℤ) (outcome : CallOutcome) :
    State :=
  let s' := if ownsAttempt s attemptNumber then { s with run := markRunning s.run taskId now } else s
  match outcome with
  | .raisesBefore error => s.goto p (.failing attemptNumber error)
  | .raisesAfter error => s'.goto p (.failing attemptNumber error)
  | .returns => s'.goto p .idle

end

def step (s : State) : Event → State
  | .reconcile p now disabled => reconcileRun s p now disabled
  | .commitInspection p =>
    match s.processes p with
    | .inspecting now task =>
      { s with run := inspected s.run now task, lockedBy := none }.goto p .idle
    | _ => s
  | .checkAttempt p disabled =>
    match s.processes p with
    | .enqueueing n =>
      if s.run.finishedAt ≠ none ∨ s.run.attemptNumber ≠ n ∨ disabled then s.goto p .idle
      else s.goto p (.creating n)
    | _ => s
  | .createPending p now execution outcome =>
    match s.processes p with
    | .creating n => createAttemptTask s p n now execution outcome
    | _ => s
  | .enqueueTask p now dispatchId payload outcome =>
    match s.processes p with
    | .admitting n execution => enqueueAttemptTask s p n ⟨execution, now, dispatchId, payload⟩ outcome
    | _ => s
  | .failPending p now applied =>
    match s.processes p with
    | .rejecting n taskId error =>
      let fail := Transaction.failPending now taskId none (some "Failed task queue")
      { s with store := if applied then fail.apply s.store else s.store }.goto p (.failing n error)
    | _ => s
  | .markRunning p now outcome =>
    match s.processes p with
    | .marking n taskId => markAttemptRunning s p n taskId now outcome
    | _ => s
  | .recordFailure p =>
    match s.processes p with
    | .failing n error =>
      if ownsAttempt s n then
        { s with lockedBy := some p }.goto p (.recording n error (getAttemptTask s.store s.run.id n))
      else s.goto p .idle
    | _ => s
  | .commitFailure p now =>
    match s.processes p with
    | .recording _ error task =>
      { s with run := failedAttempt s.run task error now, lockedBy := none }.goto p .idle
    | _ => s
  | .skipLocked p =>
    match s.processes p with
    | .marking _ _ | .failing _ _ => s.goto p .idle
    | _ => s
  | .abort p => { s with lockedBy := s.lockedBy.filter (· ≠ p) }.goto p .idle
  | .cancelActiveRun now reason =>
    if s.lockedBy ≠ none ∨ s.run.finishedAt ≠ none then s
    else { s with run := finishRun s.run .cancelled now (some reason) }
  | .task transaction =>
    if opensAttempt s.store s.run.id transaction then s
    else { s with store := transaction.apply s.store }

structure Initial (s : State) : Prop where
  pending : s.run.status = .pending
  attemptNumber : s.run.attemptNumber = 0
  unfinished : s.run.finishedAt = none
  unlocked : s.lockedBy = none
  idle : ∀ p, s.processes p = .idle
  tasks : ∀ task ∈ s.store.tasks.rows, task.scheduleRunId ≠ some s.run.id

def Process.HoldsLock : Process → Prop
  | .inspecting _ _ | .recording _ _ _ => True
  | _ => False

def Process.attempt : Process → Option ℕ
  | .enqueueing n | .creating n | .admitting n _ | .rejecting n _ _ | .marking n _ | .failing n _
  | .recording n _ _ => some n
  | _ => none

def Process.Opening (n : ℕ) (process : Process) : Prop :=
  process = .enqueueing n ∨ process = .creating n

inductive Step (s : State) : Event → State → Prop
  | stay {e} : Step s e s
  | finish {e now error} : s.lockedBy = none → s.run.finishedAt = none →
      Step s e { s with run := finishRun s.run .cancelled now error }
  | start {e p now} : s.processes p = .idle → s.lockedBy = none → s.run.finishedAt = none →
      retryDue s.run now = true →
      Step s e ({ s with run := startAttempt s.run now }.goto p (.enqueueing (s.run.attemptNumber + 1)))
  | inspect {e p now} : s.processes p = .idle → s.lockedBy = none → s.run.finishedAt = none →
      Step s e ({ s with lockedBy := some p }.goto p
        (.inspecting now (getAttemptTask s.store s.run.id s.run.attemptNumber)))
  | commitInspection {p now task} : s.processes p = .inspecting now task →
      Step s (.commitInspection p) ({ s with run := inspected s.run now task, lockedBy := none }.goto p .idle)
  | advance {e p next} : ¬ (s.processes p).HoldsLock → ¬ next.HoldsLock →
      next = .idle ∨ next.attempt = (s.processes p).attempt →
      (∀ n, next.Opening n → (s.processes p).Opening n) → (∀ n e, next ≠ .admitting n e) →
      Step s e (s.goto p next)
  | create {e p n now execution next} : s.processes p = .creating n →
      s.store.task? execution.taskId = none → execution.scheduleRunId = some s.run.id →
      execution.scheduleAttempt = some (n : ℤ) →
      (∃ error, next = .failing n error) ∨ next = .admitting n execution ∧
        (∃ r, ((Transaction.createPending now execution).apply s.store).task? execution.taskId = some r) →
      Step s e ({ s with store := (Transaction.createPending now execution).apply s.store }.goto p next)
  | enqueue {e p n} {job : Enqueue} {next} : s.processes p = .admitting n job.toTaskExecution →
      (∃ error, next = .rejecting n job.taskId error) ∨ next = .marking n job.taskId →
      Step s e ({ s with store := (Transaction.enqueueWithDispatch job).apply s.store }.goto p next)
  | reject {e p n now taskId error} : s.processes p = .rejecting n taskId error →
      Step s e ({ s with
        store := (Transaction.failPending now taskId none (some "Failed task queue")).apply s.store
        }.goto p (.failing n error))
  | mark {e p n taskId now next} : s.processes p = .marking n taskId → ownsAttempt s n = true →
      next = .idle ∨ (∃ error, next = .failing n error) →
      Step s e ({ s with run := markRunning s.run taskId now }.goto p next)
  | record {e p n error} : s.processes p = .failing n error → ownsAttempt s n = true →
      Step s e ({ s with lockedBy := some p }.goto p
        (.recording n error (getAttemptTask s.store s.run.id n)))
  | commitFailure {p n error task now} : s.processes p = .recording n error task →
      Step s (.commitFailure p now)
        ({ s with run := failedAttempt s.run task error now, lockedBy := none }.goto p .idle)
  | abort {e p} : Step s e ({ s with lockedBy := s.lockedBy.filter (· ≠ p) }.goto p .idle)
  | task {e t} : opensAttempt s.store s.run.id t = false → Step s e { s with store := t.apply s.store }

section

variable (s : State) (e : Event) (p : ℕ)

lemma reconcileRun_step (now : ℤ) (disabled : Bool) : Step s e (reconcileRun s p now disabled) := by
  rw [reconcileRun]
  split
  · exact .stay
  · next hready =>
    simp only [not_or, not_not] at hready
    obtain ⟨hi, hunl, hu⟩ := hready
    split
    · exact .finish hunl hu
    · split
      · next hdue => exact .start hi hunl hu hdue
      · split
        · exact .inspect hi hunl hu
        · exact .stay

variable {n : ℕ}

lemma leave_step {process : Process} (h : s.processes p = process) (hl : ¬ process.HoldsLock) :
    Step s e (s.goto p .idle) :=
  .advance (h ▸ hl) (by simp [Process.HoldsLock]) (.inl rfl) (by simp [Process.Opening]) (by simp)

lemma fail_step {process : Process} (h : s.processes p = process) (hl : ¬ process.HoldsLock)
    (hattempt : process.attempt = some n) (error : String) : Step s e (s.goto p (.failing n error)) :=
  .advance (h ▸ hl) (by simp [Process.HoldsLock]) (.inr (by rw [h, hattempt, Process.attempt]))
    (by simp [Process.Opening]) (by simp)

lemma createAttemptTask_step (h : s.processes p = .creating n) (now : DateTime)
    (execution : TaskExecution) (outcome : CallOutcome) :
    Step s e (createAttemptTask s p n now execution outcome) := by
  have hr := fail_step s e p h (by simp [Process.HoldsLock]) rfl
  rw [createAttemptTask.eq_def]
  dsimp only
  split
  · exact .stay
  · next hfresh =>
    have hfresh := not_not.mp hfresh
    split
    · exact hr _
    · next error => exact .create h hfresh rfl rfl (.inl ⟨error, rfl⟩)
    · split
      · exact hr _
      · next result store hok =>
        have hstore : (Transaction.createPending now
            (attemptExecution s.run n execution)).apply s.store = store := by
          rw [Transaction.apply, hok, committed]
        have hrow := createPending_ok hok
        rw [← hstore] at hrow ⊢
        exact .create h hfresh rfl rfl (.inr ⟨rfl, hrow⟩)

lemma enqueueAttemptTask_step {job : Enqueue} (h : s.processes p = .admitting n job.toTaskExecution)
    (outcome : CallOutcome) : Step s e (enqueueAttemptTask s p n job outcome) := by
  have hr : ∀ error, Step s e (s.goto p (.rejecting n job.taskId error)) := fun error =>
    .advance (by simp [h, Process.HoldsLock]) (by simp [Process.HoldsLock])
      (.inr (by simp [h, Process.attempt])) (by simp [Process.Opening]) (by simp)
  rw [enqueueAttemptTask.eq_def]
  split
  · exact hr _
  · next error => exact .enqueue h (.inl ⟨error, rfl⟩)
  · split
    · exact hr _
    · next result store hok =>
      have hstore : (Transaction.enqueueWithDispatch job).apply s.store = store := by
        rw [Transaction.apply, hok, committed]
      rw [← hstore]
      exact .enqueue h (.inr rfl)

lemma markAttemptRunning_step {taskId : String} (h : s.processes p = .marking n taskId)
    (now : ℤ) (outcome : CallOutcome) : Step s e (markAttemptRunning s p n taskId now outcome) := by
  have hr := fail_step s e p h (by simp [Process.HoldsLock]) rfl
  rw [markAttemptRunning.eq_def]
  cases hown : ownsAttempt s n with
  | false =>
    cases outcome with
    | returns => exact leave_step s e p h (by simp [Process.HoldsLock])
    | raisesBefore error | raisesAfter error => exact hr error
  | true =>
    cases outcome with
    | returns => exact .mark h hown (.inl rfl)
    | raisesBefore error => exact hr error
    | raisesAfter error => exact .mark h hown (.inr ⟨error, rfl⟩)

theorem step_cases : Step s e (step s e) := by
  cases e with
  | reconcile p now disabled => exact reconcileRun_step s _ p now disabled
  | commitInspection p =>
    rw [step]
    split
    · next h => exact .commitInspection h
    · exact .stay
  | checkAttempt p disabled =>
    rw [step]
    split
    · next n h =>
      split
      · exact leave_step s _ p h (by simp [Process.HoldsLock])
      · refine .advance (by simp [h, Process.HoldsLock]) (by simp [Process.HoldsLock])
          (.inr (by simp [h, Process.attempt])) (fun m hm => ?_) (by simp)
        simp only [Process.Opening, reduceCtorEq, Process.creating.injEq, false_or] at hm
        exact .inl (hm ▸ h)
    · exact .stay
  | createPending p now execution outcome =>
    rw [step]
    split
    · next h => exact createAttemptTask_step s _ p h now execution outcome
    · exact .stay
  | enqueueTask p now dispatchId payload outcome =>
    rw [step]
    split
    · next h => exact enqueueAttemptTask_step s _ p h outcome
    · exact .stay
  | failPending p now applied =>
    rw [step]
    split
    · next n taskId error h =>
      cases applied with
      | true => exact .reject h
      | false => exact fail_step s _ p h (by simp [Process.HoldsLock]) rfl error
    · exact .stay
  | markRunning p now outcome =>
    rw [step]
    split
    · next h => exact markAttemptRunning_step s _ p h now outcome
    · exact .stay
  | recordFailure p =>
    rw [step]
    split
    · next h =>
      split
      · next hown => exact .record h hown
      · exact leave_step s _ p h (by simp [Process.HoldsLock])
    · exact .stay
  | commitFailure p now =>
    rw [step]
    split
    · next h => exact .commitFailure h
    · exact .stay
  | skipLocked p =>
    rw [step]
    split
    · next h => exact leave_step s _ p h (by simp [Process.HoldsLock])
    · next h => exact leave_step s _ p h (by simp [Process.HoldsLock])
    · exact .stay
  | abort p => exact .abort
  | cancelActiveRun now reason =>
    rw [step]
    split
    · exact .stay
    · next h =>
      simp only [not_or, not_not] at h
      exact .finish h.1 h.2
  | task transaction =>
    rw [step]
    split
    · exact .stay
    · next h => exact .task (Bool.eq_false_iff.mpr h)

end

end Dvt.Scheduling
