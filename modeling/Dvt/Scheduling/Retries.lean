import Dvt.Scheduling.System

/-! The retries of a schedule run are bounded, and a finished run is not written again. -/

namespace Dvt.Scheduling

open Library Tasks

variable {s s' : State} {e : Event}

structure SameAttempt (run run' : ProjectScheduleRunRecord) : Prop where
  id : run'.id = run.id
  maxRetries : run'.maxRetries = run.maxRetries
  attemptNumber : run'.attemptNumber = run.attemptNumber
  status : run'.status = run.status ∨ run'.status ≠ .pending ∧
    (run'.status = .waitingRetry → run.attemptNumber ≤ run.maxRetries)

section

variable (run : ProjectScheduleRunRecord) (now : ℤ)

lemma SameAttempt.refl : SameAttempt run run := ⟨rfl, rfl, rfl, .inl rfl⟩

lemma sameAttempt_recordAttemptFailure (error : String) (taskId : Option String) :
    SameAttempt run (recordAttemptFailure { run with currentTaskId := taskId } now error) := by
  rw [recordAttemptFailure]
  split
  · next hl => exact ⟨rfl, rfl, rfl, .inr ⟨by simp, fun _ => hl⟩⟩
  · exact ⟨rfl, rfl, rfl, .inr (by simp [finishRun])⟩

lemma sameAttempt_inspected (task : Option TaskRecord) : SameAttempt run (inspected run now task) := by
  cases task with
  | none =>
    rw [inspected]
    split
    · exact sameAttempt_recordAttemptFailure run now _ run.currentTaskId
    · exact SameAttempt.refl run
  | some task =>
    rw [inspected, applyTaskResult]
    cases task.status with
    | success | cancelled => exact ⟨rfl, rfl, rfl, .inr (by simp [finishRun])⟩
    | error => exact sameAttempt_recordAttemptFailure run now _ (some task.taskId)
    | _ => exact ⟨rfl, rfl, rfl, .inr (by simp)⟩

lemma sameAttempt_failedAttempt (task : Option TaskRecord) (error : String) :
    SameAttempt run (failedAttempt run task error now) := by
  cases task with
  | none => exact sameAttempt_recordAttemptFailure run now error run.currentTaskId
  | some task => exact sameAttempt_recordAttemptFailure run now _ (some task.taskId)

end

structure Consistent (s : State) : Prop where
  locked : ∀ p, (s.processes p).HoldsLock → s.lockedBy = some p ∧ s.run.finishedAt = none
  pending : s.run.status = .pending → s.run.attemptNumber = 0
  waiting : s.run.status = .waitingRetry → s.run.attemptNumber ≤ s.run.maxRetries
  bounded : s.run.attemptNumber ≤ s.run.maxRetries + 1

lemma ownsAttempt_iff {n : ℕ} : ownsAttempt s n = true ↔
    s.lockedBy = none ∧ s.run.finishedAt = none ∧ s.run.attemptNumber = n := by
  rw [ownsAttempt, decide_eq_true_iff]

section

variable {p q : ℕ} {process : Process} (hq : ((s.goto p process).processes q).HoldsLock)

include hq

lemma holdsLock_of_goto (hn : ¬ process.HoldsLock) : q ≠ p ∧ (s.processes q).HoldsLock := by
  rw [processes_goto] at hq
  split at hq
  · exact absurd hq hn
  · next hne => exact ⟨hne, hq⟩

lemma eq_of_holdsLock_goto (hn : ¬ (s.processes q).HoldsLock) : q = p := by
  by_contra hne
  rw [processes_goto, if_neg hne] at hq
  exact hn hq

end

section

variable (h : Consistent s)

include h

lemma Consistent.unlocked_of (hl : s.lockedBy = none) (p : ℕ) : ¬ (s.processes p).HoldsLock := by
  intro hp
  have hp := (h.locked p hp).1
  rw [hl] at hp
  cases hp

lemma Step.run_cases (hs : Step s e s') : s'.run = s.run ∨
    s.run.finishedAt = none ∧ (SameAttempt s.run s'.run ∨
      ∃ now, retryDue s.run now = true ∧ s'.run = startAttempt s.run now) := by
  cases hs with
  | finish _ hopen => exact .inr ⟨hopen, .inl ⟨rfl, rfl, rfl, .inr (by simp [finishRun])⟩⟩
  | start _ _ hopen hdue => exact .inr ⟨hopen, .inr ⟨_, hdue, rfl⟩⟩
  | @commitInspection p now task hp =>
    have hopen := (h.locked p (by simp [hp, Process.HoldsLock])).2
    exact .inr ⟨hopen, .inl (sameAttempt_inspected _ _ _)⟩
  | mark _ hown _ =>
    exact .inr ⟨(ownsAttempt_iff.mp hown).2.1, .inl ⟨rfl, rfl, rfl, .inr (by simp [markRunning])⟩⟩
  | @commitFailure p n error task now hp =>
    have hopen := (h.locked p (by simp [hp, Process.HoldsLock])).2
    exact .inr ⟨hopen, .inl (sameAttempt_failedAttempt _ _ _ _)⟩
  | _ => exact .inl rfl

lemma Consistent.holder_unique {p q : ℕ} (hp : (s.processes p).HoldsLock)
    (hq : (s.processes q).HoldsLock) : q = p := by
  have hp := (h.locked p hp).1
  rw [(h.locked q hq).1] at hp
  exact Option.some.inj hp

lemma Step.locked (hs : Step s e s') (q : ℕ) (hq : (s'.processes q).HoldsLock) :
    s'.lockedBy = some q ∧ s'.run.finishedAt = none := by
  cases hs with
  | stay => exact h.locked q hq
  | finish hl _ => exact absurd hq (h.unlocked_of hl q)
  | start _ hl _ _ => exact absurd (holdsLock_of_goto hq id).2 (h.unlocked_of hl q)
  | inspect _ hl hopen =>
    obtain rfl := eq_of_holdsLock_goto hq (h.unlocked_of hl q)
    exact ⟨rfl, hopen⟩
  | @commitInspection p now task hp =>
    obtain ⟨hne, hq⟩ := holdsLock_of_goto hq id
    exact absurd (h.holder_unique (by simp [hp, Process.HoldsLock]) hq) hne
  | advance _ hn _ _ _ => exact h.locked q (holdsLock_of_goto hq hn).2
  | create _ _ _ _ hn =>
    refine h.locked q (holdsLock_of_goto hq ?_).2
    rcases hn with ⟨error, rfl⟩ | ⟨rfl, _⟩ <;> exact id
  | enqueue _ hn =>
    refine h.locked q (holdsLock_of_goto hq ?_).2
    rcases hn with ⟨error, rfl⟩ | rfl <;> exact id
  | reject _ => exact h.locked q (holdsLock_of_goto hq id).2
  | mark _ hown hn =>
    refine absurd (holdsLock_of_goto hq ?_).2 (h.unlocked_of (ownsAttempt_iff.mp hown).1 q)
    rcases hn with rfl | ⟨error, rfl⟩ <;> exact id
  | record _ hown =>
    obtain ⟨hl, hopen, _⟩ := ownsAttempt_iff.mp hown
    obtain rfl := eq_of_holdsLock_goto hq (h.unlocked_of hl q)
    exact ⟨rfl, hopen⟩
  | @commitFailure p n error task now hp =>
    obtain ⟨hne, hq⟩ := holdsLock_of_goto hq id
    exact absurd (h.holder_unique (by simp [hp, Process.HoldsLock]) hq) hne
  | @abort _ p =>
    obtain ⟨hne, hq⟩ := holdsLock_of_goto hq id
    obtain ⟨hl, hopen⟩ := h.locked q hq
    exact ⟨by simp [State.goto, hl, hne], hopen⟩
  | task _ => exact h.locked q hq

lemma Consistent.step (hs : Step s e s') : Consistent s' := by
  have hl := hs.locked h
  rcases hs.run_cases h with heq | ⟨hopen, hsame | ⟨now, hdue, heq⟩⟩
  · exact ⟨hl, heq ▸ h.pending, heq ▸ h.waiting, heq ▸ h.bounded⟩
  · obtain ⟨_, hmax, hattempt, hsta⟩ := hsame
    refine ⟨hl, fun hp => ?_, fun hw => ?_, ?_⟩
    · rw [hattempt]
      rcases hsta with hk | ⟨hne, _⟩
      · exact h.pending (hk ▸ hp)
      · exact absurd hp hne
    · rw [hattempt, hmax]
      rcases hsta with hk | ⟨_, hleft⟩
      · exact h.waiting (hk ▸ hw)
      · exact hleft hw
    · rw [hattempt, hmax]
      exact h.bounded
  · refine ⟨hl, fun hp => ?_, fun hw => ?_, ?_⟩
    · rw [heq] at hp
      cases hp
    · rw [heq] at hw
      cases hw
    · rw [heq]
      simp only [retryDue, decide_eq_true_eq] at hdue
      rcases hdue with hp | ⟨hw, _⟩
      · have := h.pending hp
        simp only [startAttempt]
        omega
      · exact Nat.succ_le_succ (h.waiting hw)

end

lemma Initial.consistent (h : Initial s) : Consistent s where
  locked p hp := by
    rw [h.idle p] at hp
    cases hp
  pending _ := h.attemptNumber
  waiting hw := by
    rw [h.pending] at hw
    cases hw
  bounded := by
    rw [h.attemptNumber]
    exact Nat.zero_le _

lemma Initial.consistent_run (h : Initial s) (events : List Event) :
    Consistent (run step s events) :=
  run_invariant events (fun s e hs => hs.step (step_cases s e)) h.consistent

lemma Step.store_cases (hs : Step s e s') :
    s'.store = s.store ∨ ∃ t : Transaction, s'.store = t.apply s.store := by
  cases hs with
  | @create _ p n now execution => exact .inr ⟨.createPending now execution, rfl⟩
  | @enqueue _ p n job => exact .inr ⟨.enqueueWithDispatch job, rfl⟩
  | @reject _ p n now taskId => exact .inr ⟨.failPending now taskId none _, rfl⟩
  | @task _ t => exact .inr ⟨t, rfl⟩
  | _ => exact .inl rfl

variable {store : Store} {task task' : TaskRecord} {runId : String} {n : ℕ}

lemma ofAttempt_iff : ofAttempt runId n task = true ↔
    task.scheduleRunId = some runId ∧ task.scheduleAttempt = some (n : ℤ) := by
  rw [ofAttempt, decide_eq_true_iff]

lemma eq_of_ofAttempt (h : task ∈ store.tasks.rows) (h' : task' ∈ store.tasks.rows)
    (ht : ofAttempt runId n task = true) (ht' : ofAttempt runId n task' = true) : task = task' := by
  obtain ⟨hrun, hattempt⟩ := ofAttempt_iff.mp ht
  obtain ⟨hrun', hattempt'⟩ := ofAttempt_iff.mp ht'
  refine Table.eq_of_clash h h' (.inr ?_)
  simp [taskSchema, hrun, hattempt, hrun', hattempt']

lemma RowStep.schedule {id : String} {t : Transaction} {o : Option TaskRecord}
    (h : RowStep id t (some task) o) : ∃ task', o = some task' ∧
      task'.scheduleRunId = task.scheduleRunId ∧ task'.scheduleAttempt = task.scheduleAttempt := by
  cases h with
  | admitted _ ha | admittedStale _ ha => cases ha <;> exact ⟨_, rfl, rfl, rfl⟩
  | _ => exact ⟨_, rfl, rfl, rfl⟩

lemma task?_apply (t : Transaction) (h : task ∈ store.tasks.rows) : ∃ task',
    (t.apply store).task? task.taskId = some task' ∧
      RowStep task.taskId t (some task) (some task') := by
  have hrow := apply_row store task.taskId t
  rw [Store.task?_of_mem h] at hrow
  obtain ⟨task', ht', _⟩ := RowStep.schedule hrow
  exact ⟨task', ht', ht' ▸ hrow⟩

lemma ofAttempt_apply (t : Transaction) (h : task ∈ store.tasks.rows)
    (ht : ofAttempt runId n task = true) : ∃ task' ∈ (t.apply store).tasks.rows,
      task'.taskId = task.taskId ∧ ofAttempt runId n task' = true := by
  obtain ⟨task', htask', hrow⟩ := task?_apply t h
  obtain ⟨task'', heq, hrun, hattempt⟩ := RowStep.schedule hrow
  obtain rfl := Option.some.inj heq
  refine ⟨task', Store.task?_mem htask', Store.task?_id htask', ofAttempt_iff.mpr ?_⟩
  rw [hrun, hattempt]
  exact ofAttempt_iff.mp ht

structure Later (s s' : State) : Prop where
  id : s'.run.id = s.run.id
  maxRetries : s'.run.maxRetries = s.run.maxRetries
  attemptNumber : s.run.attemptNumber ≤ s'.run.attemptNumber
  finished : s.run.finishedAt ≠ none → s'.run = s.run
  tasks : ∀ n, ∀ task ∈ s.store.tasks.rows, ofAttempt s.run.id n task = true →
    ∃ task' ∈ s'.store.tasks.rows, task'.taskId = task.taskId ∧ ofAttempt s.run.id n task' = true

lemma Later.refl (s : State) : Later s s :=
  ⟨rfl, rfl, Nat.le_refl _, fun _ => rfl, fun _ task ht hof => ⟨task, ht, rfl, hof⟩⟩

lemma Later.trans {s₁ s₂ s₃ : State} (h : Later s₁ s₂) (h' : Later s₂ s₃) : Later s₁ s₃ where
  id := h'.id.trans h.id
  maxRetries := h'.maxRetries.trans h.maxRetries
  attemptNumber := h.attemptNumber.trans h'.attemptNumber
  finished hfinished := by
    have hs := h.finished hfinished
    rw [← hs] at hfinished ⊢
    exact h'.finished hfinished
  tasks n task ht hof := by
    obtain ⟨task', ht', hid, hof'⟩ := h.tasks n task ht hof
    obtain ⟨task'', ht'', hid', hof''⟩ := h'.tasks n task' ht' (h.id ▸ hof')
    exact ⟨task'', ht'', hid'.trans hid, h.id ▸ hof''⟩

lemma Step.later (h : Consistent s) (hs : Step s e s') : Later s s' := by
  have ht : ∀ n, ∀ task ∈ s.store.tasks.rows, ofAttempt s.run.id n task = true →
      ∃ task' ∈ s'.store.tasks.rows, task'.taskId = task.taskId ∧
        ofAttempt s.run.id n task' = true := by
    intro n task htask hof
    rcases hs.store_cases with heq | ⟨t, heq⟩
    · exact ⟨task, heq ▸ htask, rfl, hof⟩
    · rw [heq]
      exact ofAttempt_apply t htask hof
  rcases hs.run_cases h with heq | ⟨hopen, hsame | ⟨now, _, heq⟩⟩
  · exact ⟨by rw [heq], by rw [heq], by rw [heq], fun _ => heq, ht⟩
  · exact ⟨hsame.id, hsame.maxRetries, hsame.attemptNumber.ge, fun h => absurd hopen h, ht⟩
  · refine ⟨by rw [heq]; rfl, by rw [heq]; rfl, ?_, fun h => absurd hopen h, ht⟩
    rw [heq]
    exact Nat.le_succ _

lemma later_run (h : Consistent s) (events : List Event) : Later s (run step s events) := by
  induction events generalizing s with
  | nil => exact Later.refl s
  | cons e events ih =>
    exact ((step_cases s e).later h).trans (ih (h.step (step_cases s e)))

structure FollowsPolicy (s s' : State) : Prop where
  grows : s.run.attemptNumber ≤ s'.run.attemptNumber
  bounded : s'.run.attemptNumber ≤ s.run.maxRetries + 1
  oneTask : ∀ n, ∀ task ∈ s.store.tasks.rows, ∀ task' ∈ s'.store.tasks.rows,
    ofAttempt s.run.id n task = true → ofAttempt s.run.id n task' = true →
    task'.taskId = task.taskId
  frozen : s.run.finishedAt ≠ none → s'.run.status = s.run.status ∧
    s'.run.finishedAt = s.run.finishedAt ∧ s'.run.attemptNumber = s.run.attemptNumber

theorem retries_bounded {s : State} (h : Initial s) (before after : List Event) :
    FollowsPolicy (run step s before) (run step s (before ++ after)) := by
  have hbefore := h.consistent_run before
  have hafter := h.consistent_run (before ++ after)
  have hlater := later_run hbefore after
  rw [← run_append] at hlater
  refine ⟨hlater.attemptNumber, ?_, ?_, ?_⟩
  · rw [← hlater.maxRetries]
    exact hafter.bounded
  · intro n task htask task' htask' hof hof'
    obtain ⟨kept, hkept, hid, hofKept⟩ := hlater.tasks n task htask hof
    rw [eq_of_ofAttempt htask' hkept hof' hofKept, hid]
  · intro hfinished
    rw [hlater.finished hfinished]
    exact ⟨rfl, rfl, rfl⟩

def sampleState : State where
  run := { id := "run-1", updatedAt := 0, maxRetries := 1 }
  store := .empty

def sampleStart : List Event :=
  [.reconcile 0 0 false, .checkAttempt 0 false,
    .createPending 0 sampleTime (sampleExecution "task" .scheduler) .returns,
    .enqueueTask 0 sampleTime "dispatch" ⟨"task", ""⟩ (.raisesAfter "Connection reset"),
    .failPending 0 sampleTime true]

def sampleRetry : List Event :=
  [.recordFailure 0, .commitFailure 0 0, .reconcile 0 (seconds 60) false]

lemma initial_sampleState : Initial sampleState where
  pending := rfl
  attemptNumber := rfl
  unfinished := rfl
  unlocked := rfl
  idle _ := rfl
  tasks _ h := by cases h

theorem retries_bounded_sampleRetry :
    FollowsPolicy (run step sampleState sampleStart) (run step sampleState (sampleStart ++ sampleRetry)) :=
  retries_bounded initial_sampleState sampleStart sampleRetry

end Dvt.Scheduling
