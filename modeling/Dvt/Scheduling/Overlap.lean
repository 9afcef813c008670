import Dvt.Scheduling.Retries

/-! Attempts of a schedule run overlap when a failure is recorded while the task may still run. -/

namespace Dvt.Scheduling

open Library Tasks

variable {s s' : State} {n : ℕ} {task : TaskRecord} {e : Event} {id : String}

def AttemptEnded (s : State) (n : ℕ) : Prop :=
  ∀ task ∈ s.store.tasks.rows, ofAttempt s.run.id n task = true →
    task.status = .error ∨ task.status = .cancelled

structure Settled (s : State) (n : ℕ) : Prop where
  ended : AttemptEnded s n
  opening : ∀ p, ¬ (s.processes p).Opening n

def NonOverlapping (s : State) : Prop :=
  ∀ n < s.run.attemptNumber, ∀ task ∈ s.store.tasks.rows, ofAttempt s.run.id n task = true →
    task.status ∈ terminalStatuses ∧ task.status ≠ .success

/-- A failure is recorded after an exception only when the task has ended without success, and a start
lease expires only when no process is still starting the attempt. -/
def FailsSettled (s : State) : Event → Prop
  | .commitFailure p _ =>
    match s.processes p with
    | .recording n _ _ => AttemptEnded s n
    | _ => True
  | .commitInspection p =>
    match s.processes p with
    | .inspecting now none => leaseExpired s.run now = true → Settled s s.run.attemptNumber
    | _ => True
  | _ => True

variable {task' : TaskRecord} {runId : String}

lemma row_origin (store : Store) (t : Transaction) (h : task' ∈ (t.apply store).tasks.rows) :
    (∃ task ∈ store.tasks.rows, RowStep task'.taskId t (some task) (some task')) ∨
      store.task? task'.taskId = none ∧ ∃ now execution, (t = .createPending now execution ∨
        ∃ dispatchId payload, t = .enqueueWithDispatch ⟨execution, now, dispatchId, payload⟩) ∧
        execution.taskId = task'.taskId ∧ task'.scheduleRunId = execution.scheduleRunId ∧
        task'.scheduleAttempt = execution.scheduleAttempt := by
  have hrow := apply_row store task'.taskId t
  rw [Store.task?_of_mem h] at hrow
  cases ho : store.task? task'.taskId with
  | some task => exact .inl ⟨task, Store.task?_mem ho, ho ▸ hrow⟩
  | none =>
    refine .inr ⟨rfl, ?_⟩
    rw [ho] at hrow
    generalize hid : task'.taskId = id at hrow
    cases hrow with
    | created he => exact ⟨_, _, .inl rfl, he, rfl, rfl⟩
    | admitted he ha | admittedStale he ha =>
      cases ha
      exact ⟨_, _, .inr ⟨_, _, rfl⟩, he, rfl, rfl⟩

def Carried (store : Store) (runId : String) (n : ℕ) (task' : TaskRecord) : Prop :=
  ∃ task ∈ store.tasks.rows, ofAttempt runId n task = true ∧
    (task.status ∈ terminalStatuses → task' = task)

variable {store : Store} {t : Transaction}

lemma carried_of_rowStep
    (h : task ∈ store.tasks.rows) (hrow : RowStep id t (some task) (some task'))
    (hof : ofAttempt runId n task' = true) : Carried store runId n task' := by
  obtain ⟨task'', heq, hrun, hattempt⟩ := RowStep.schedule hrow
  obtain rfl := Option.some.inj heq
  refine ⟨task, h, ofAttempt_iff.mpr ?_, fun ht => ?_⟩
  · rw [← hrun, ← hattempt]
    exact ofAttempt_iff.mp hof
  · exact Option.some.inj (hrow.terminal ht)

lemma carried_of_not_opens
    (ho : opensAttempt store runId t = false) (h : task' ∈ (t.apply store).tasks.rows)
    (hof : ofAttempt runId n task' = true) : Carried store runId n task' := by
  rcases row_origin store t h with ⟨task, htask, hrow⟩ | ⟨hn, now, execution, ht, hid, hrun, _⟩
  · exact carried_of_rowStep htask hrow hof
  · have hsch : execution.scheduleRunId = some runId :=
      hrun.symm.trans (ofAttempt_iff.mp hof).1
    rw [← hid] at hn
    rcases ht with rfl | ⟨dispatchId, payload, rfl⟩ <;>
      simp [opensAttempt, hsch, hn] at ho

structure Orderly (s : State) : Prop extends Consistent s where
  attempts : ∀ p n, (s.processes p).attempt = some n → 0 < n ∧ n ≤ s.run.attemptNumber
  unique : ∀ p q n, (s.processes p).attempt = some n → (s.processes q).attempt = some n → p = q
  tasks : ∀ n, ∀ task ∈ s.store.tasks.rows, ofAttempt s.run.id n task = true →
    0 < n ∧ n ≤ s.run.attemptNumber
  unopened : ∀ p n, (s.processes p).Opening n → ∀ task ∈ s.store.tasks.rows,
    ofAttempt s.run.id n task ≠ true
  admitting : ∀ p n execution, s.processes p = .admitting n execution →
    ∃ task, s.store.task? execution.taskId = some task
  recording : ∀ p n error task, s.processes p = .recording n error task → s.run.attemptNumber = n
  inspecting : ∀ p now task, s.processes p = .inspecting now (some task) →
    ofAttempt s.run.id s.run.attemptNumber task = true ∧
      (task.status ∈ terminalStatuses → task ∈ s.store.tasks.rows)
  settled : ∀ n < s.run.attemptNumber, Settled s n
  retry : s.run.status = .waitingRetry → Settled s s.run.attemptNumber

inductive Moves (s s' : State) (q : ℕ) : Process → Process → Prop
  | keep {process} : Moves s s' q process process
  | leave {process} : Moves s s' q process .idle
  | start : s'.run.attemptNumber = s.run.attemptNumber + 1 →
      (∀ r, r ≠ q → s'.processes r = s.processes r) →
      Moves s s' q .idle (.enqueueing (s.run.attemptNumber + 1))
  | inspect {now task} : s'.store = s.store → s'.run = s.run →
      getAttemptTask s.store s.run.id s.run.attemptNumber = task →
      Moves s s' q .idle (.inspecting now task)
  | record {n error task} : s'.run = s.run → s.run.attemptNumber = n →
      Moves s s' q (.failing n error) (.recording n error task)
  | advance {process next : Process} : ¬ next.HoldsLock → next.attempt = process.attempt →
      (∀ n, next.Opening n → process.Opening n) →
      (∀ n execution, next = .admitting n execution →
        ∃ task, s'.store.task? execution.taskId = some task) →
      Moves s s' q process next

section

variable {q : ℕ}

lemma Process.Opening.attempt {process : Process} (h : process.Opening n) :
    process.attempt = some n := by
  rcases h with rfl | rfl <;> rfl

lemma moves_goto {t : State} {p : ℕ} {next : Process} (ht : t.processes = s.processes) (q : ℕ)
    (h : Moves s (t.goto p next) p (s.processes p) next) :
    Moves s (t.goto p next) q (s.processes q) ((t.goto p next).processes q) := by
  rw [processes_goto]
  split
  · next he => exact he ▸ h
  · rw [ht]
    exact .keep

section

variable (hs : Step s e s')

include hs

lemma Step.moves (q : ℕ) : Moves s s' q (s.processes q) (s'.processes q) := by
  cases hs with
  | stay | finish _ _ => exact .keep
  | start hp _ _ _ =>
    refine moves_goto (by rfl) q ?_
    rw [hp]
    exact .start rfl fun r hr => by rw [processes_goto, if_neg hr]
  | inspect hp _ _ =>
    refine moves_goto (by rfl) q ?_
    rw [hp]
    exact .inspect rfl rfl rfl
  | commitInspection _ => exact moves_goto (by rfl) q .leave
  | advance _ hl hattempt ho hn =>
    refine moves_goto (by rfl) q ?_
    rcases hattempt with rfl | hattempt
    · exact .leave
    · exact .advance hl hattempt ho fun n execution he => absurd he (hn n execution)
  | create hp _ _ _ hnext =>
    refine moves_goto (by rfl) q ?_
    rw [hp]
    rcases hnext with ⟨error, rfl⟩ | ⟨rfl, hrow⟩
    · exact .advance (by simp [Process.HoldsLock]) rfl (by simp [Process.Opening]) (by simp)
    · refine .advance (by simp [Process.HoldsLock]) rfl (by simp [Process.Opening]) ?_
      rintro m execution' ⟨⟩
      exact hrow
  | enqueue hp hnext =>
    refine moves_goto (by rfl) q ?_
    rw [hp]
    rcases hnext with ⟨error, rfl⟩ | rfl <;>
      exact .advance (by simp [Process.HoldsLock]) rfl (by simp [Process.Opening]) (by simp)
  | reject hp =>
    refine moves_goto (by rfl) q ?_
    rw [hp]
    exact .advance (by simp [Process.HoldsLock]) rfl (by simp [Process.Opening]) (by simp)
  | mark hp _ hnext =>
    refine moves_goto (by rfl) q ?_
    rcases hnext with rfl | ⟨error, rfl⟩
    · exact .leave
    · rw [hp]
      exact .advance (by simp [Process.HoldsLock]) rfl (by simp [Process.Opening]) (by simp)
  | record hp hown =>
    refine moves_goto (by rfl) q ?_
    rw [hp]
    exact .record rfl (ownsAttempt_iff.mp hown).2.2
  | commitFailure _ | abort => exact moves_goto (by rfl) q .leave
  | task _ => exact .keep

lemma Step.attempt_origin (h : (s'.processes q).attempt = some n) :
    (s.processes q).attempt = some n ∨ n = s.run.attemptNumber + 1 ∧ s'.run.attemptNumber = n ∧
      ∀ r, r ≠ q → s'.processes r = s.processes r := by
  have hm := hs.moves q
  generalize s.processes q = process at hm ⊢
  generalize s'.processes q = next at hm h
  cases hm with
  | keep => exact .inl h
  | leave => cases h
  | start hn ho =>
    obtain rfl := Option.some.inj h
    exact .inr ⟨rfl, hn, ho⟩
  | inspect _ _ _ => cases h
  | record _ _ => exact .inl h
  | advance _ hattempt _ _ => exact .inl (hattempt ▸ h)

lemma Step.opening_origin (h : (s'.processes q).Opening n) :
    (s.processes q).Opening n ∨ n = s.run.attemptNumber + 1 ∧ s'.run.attemptNumber = n := by
  have hm := hs.moves q
  generalize s.processes q = process at hm ⊢
  generalize s'.processes q = next at hm h
  cases hm with
  | keep => exact .inl h
  | leave => simp [Process.Opening] at h
  | start hnum _ =>
    have hn := Option.some.inj h.attempt
    exact .inr ⟨hn.symm, hnum.trans hn⟩
  | inspect _ _ _ | record _ _ => simp [Process.Opening] at h
  | advance _ _ ho _ => exact .inl (ho n h)

lemma Step.attemptNumber_of_locked (h : s.lockedBy ≠ none) :
    s'.run.attemptNumber = s.run.attemptNumber := by
  cases hs with
  | start _ hl _ _ => exact absurd hl h
  | commitInspection _ => exact (sameAttempt_inspected _ _ _).attemptNumber
  | commitFailure _ => exact (sameAttempt_failedAttempt _ _ _ _).attemptNumber
  | _ => rfl

end

lemma Step.row_origin (h : Orderly s) (hs : Step s e s')
    (htask : task ∈ s'.store.tasks.rows) (hof : ofAttempt s.run.id n task = true) :
    Carried s.store s.run.id n task ∨
      ∃ p, s.processes p = .creating n ∧ ¬ (s'.processes p).Opening n := by
  have hk : task ∈ s.store.tasks.rows → Carried s.store s.run.id n task := fun htask =>
    ⟨task, htask, hof, fun _ => rfl⟩
  cases hs with
  | @create _ p m now execution next hp hfresh hrun hattempt hn =>
    rcases Scheduling.row_origin s.store _ htask with
      ⟨old, hold, hrow⟩ | ⟨hnone, now', execution', ht, hid, hrun', hattempt'⟩
    · exact .inl (carried_of_rowStep hold hrow hof)
    · right
      rcases ht with ht | ⟨_, _, ht⟩
      · obtain ⟨rfl, rfl⟩ := Transaction.createPending.inj ht
        obtain rfl : m = n := by
          have hm := hattempt'.symm.trans (ofAttempt_iff.mp hof).2
          rw [hattempt] at hm
          exact_mod_cast Option.some.inj hm
        refine ⟨p, hp, ?_⟩
        rw [processes_goto]
        rcases hn with ⟨error, rfl⟩ | ⟨rfl, _⟩ <;> simp [Process.Opening]
      · cases ht
  | @enqueue _ p m job next hp _ =>
    obtain ⟨row, hrow⟩ := h.admitting p m _ hp
    refine .inl (carried_of_not_opens ?_ htask hof)
    simp [opensAttempt, hrow]
  | reject _ => exact .inl (carried_of_not_opens rfl htask hof)
  | task ho => exact .inl (carried_of_not_opens ho htask hof)
  | _ => exact .inl (hk htask)

lemma Settled.step (h : Orderly s) (hs : Step s e s') (hn : n ≤ s.run.attemptNumber)
    (hset : Settled s n) : Settled s' n := by
  have hid := (hs.later h.toConsistent).id
  constructor
  · intro task ht hof
    rw [hid] at hof
    rcases hs.row_origin h ht hof with ⟨old, hold, hoo, hf⟩ | ⟨p, hp, _⟩
    · have he := hset.ended old hold hoo
      rw [hf (mem_terminalStatuses.mpr (.inr he))]
      exact he
    · exact absurd (.inr hp) (hset.opening p)
  · intro p hp
    rcases hs.opening_origin hp with hp | ⟨hnew, _⟩
    · exact hset.opening p hp
    · omega

end

section

variable {p : ℕ}

lemma Orderly.settled_zero (h : Orderly s) : Settled s 0 where
  ended task ht hof := absurd (h.tasks 0 task ht hof).1 (Nat.lt_irrefl 0)
  opening p hp := absurd (h.attempts p 0 hp.attempt).1 (Nat.lt_irrefl 0)

lemma Step.retry_settled (h : Orderly s) (hs : Step s e s') (hok : FailsSettled s e)
    (hw : s'.run.status = .waitingRetry) : Settled s s.run.attemptNumber := by
  cases hs with
  | finish _ _ | start _ _ _ _ | mark _ _ _ => cases hw
  | @commitInspection p now task hp =>
    cases task with
    | none =>
      simp only [FailsSettled, hp] at hok
      rw [inspected] at hw
      split at hw
      · next he => exact hok he
      · exact h.retry hw
    | some task =>
      obtain ⟨hof, hrow⟩ := h.inspecting p now task hp
      rw [inspected, applyTaskResult] at hw
      cases hsta : task.status with
      | error =>
        have ht := hrow (by simp [hsta])
        refine ⟨fun task' ht' hof' => ?_, fun p hp => h.unopened p _ hp task ht hof⟩
        rw [eq_of_ofAttempt ht' ht hof' hof]
        exact .inl hsta
      | _ =>
        rw [hsta] at hw
        cases hw
  | @commitFailure p n error task now hp =>
    simp only [FailsSettled, hp] at hok
    obtain rfl := h.recording p n error task hp
    refine ⟨hok, fun q hq => ?_⟩
    obtain rfl := h.unique q p _ hq.attempt (by rw [hp]; rfl)
    rw [hp] at hq
    simp [Process.Opening] at hq
  | _ => exact h.retry hw

lemma Step.task?_kept (hs : Step s e s') (h : ∃ task, s.store.task? id = some task) :
    ∃ task, s'.store.task? id = some task := by
  obtain ⟨task, ht⟩ := h
  rcases hs.store_cases with heq | ⟨t, heq⟩
  · exact ⟨task, heq ▸ ht⟩
  · obtain ⟨task', ht', _⟩ := task?_apply t (Store.task?_mem ht)
    rw [Store.task?_id ht] at ht'
    exact ⟨task', heq ▸ ht'⟩

lemma Step.terminal_kept (hs : Step s e s') (h : task ∈ s.store.tasks.rows)
    (ht : task.status ∈ terminalStatuses) : task ∈ s'.store.tasks.rows := by
  rcases hs.store_cases with heq | ⟨t, heq⟩
  · exact heq ▸ h
  · obtain ⟨task', htask', hrow⟩ := task?_apply t h
    obtain rfl := Option.some.inj (hrow.terminal ht)
    exact heq ▸ Store.task?_mem htask'

section

variable (h : Orderly s)

include h

variable (hs : Step s e s')

include hs

lemma Orderly.attempts_step
    (hp : (s'.processes p).attempt = some n) : 0 < n ∧ n ≤ s'.run.attemptNumber := by
  rcases hs.attempt_origin hp with hold | ⟨hnew, hn, _⟩
  · obtain ⟨hpos, hle⟩ := h.attempts p n hold
    exact ⟨hpos, hle.trans (hs.later h.toConsistent).attemptNumber⟩
  · omega

lemma Orderly.unique_step {q : ℕ}
    (hp : (s'.processes p).attempt = some n) (hq : (s'.processes q).attempt = some n) : p = q := by
  by_contra hne
  rcases hs.attempt_origin hp with hpold | ⟨hnew, _, ho⟩
  · rcases hs.attempt_origin hq with hqold | ⟨hnew, _, _⟩
    · exact hne (h.unique p q n hpold hqold)
    · have := (h.attempts p n hpold).2
      omega
  · rw [ho q (Ne.symm hne)] at hq
    have := (h.attempts q n hq).2
    omega

lemma Orderly.tasks_step
    (ht : task ∈ s'.store.tasks.rows) (hof : ofAttempt s'.run.id n task = true) :
    0 < n ∧ n ≤ s.run.attemptNumber := by
  rw [(hs.later h.toConsistent).id] at hof
  rcases hs.row_origin h ht hof with ⟨old, hold, hoo, _⟩ | ⟨p, hp, _⟩
  · exact h.tasks n old hold hoo
  · exact h.attempts p n (by rw [hp]; rfl)

lemma Orderly.unopened_step (hp : (s'.processes p).Opening n)
    (ht : task ∈ s'.store.tasks.rows) : ofAttempt s'.run.id n task ≠ true := by
  intro hof
  have hle := (h.tasks_step hs ht hof).2
  rw [(hs.later h.toConsistent).id] at hof
  rcases hs.opening_origin hp with hold | ⟨hnew, _⟩
  · rcases hs.row_origin h ht hof with ⟨old, hot, hoo, _⟩ | ⟨q, hq, hc⟩
    · exact h.unopened p n hold old hot hoo
    · obtain rfl := h.unique p q n hold.attempt (by rw [hq]; rfl)
      exact hc hp
  · omega

lemma Orderly.settled_step (hn : n < s'.run.attemptNumber) : Settled s' n := by
  have hold : n < s.run.attemptNumber → Settled s' n := fun hn =>
    Settled.step h hs hn.le (h.settled n hn)
  rcases hs.run_cases h.toConsistent with heq | ⟨_, hsame | ⟨now, hdue, heq⟩⟩
  · exact hold (by rwa [heq] at hn)
  · exact hold (by rwa [hsame.attemptNumber] at hn)
  · rw [heq] at hn
    rcases Nat.lt_succ_iff_lt_or_eq.mp hn with hlt | rfl
    · exact hold hlt
    · refine Settled.step h hs (Nat.le_refl _) ?_
      simp only [retryDue, decide_eq_true_eq] at hdue
      rcases hdue with hp | ⟨hw, _⟩
      · rw [h.pending hp]
        exact h.settled_zero
      · exact h.retry hw

lemma Orderly.step (hok : FailsSettled s e) : Orderly s' where
  toConsistent := h.toConsistent.step hs
  attempts p n hp := h.attempts_step hs hp
  unique p q n hp hq := h.unique_step hs hp hq
  tasks n task htask hof := by
    obtain ⟨hpos, hle⟩ := h.tasks_step hs htask hof
    exact ⟨hpos, hle.trans (hs.later h.toConsistent).attemptNumber⟩
  unopened p n hp task htask := h.unopened_step hs hp htask
  admitting p n execution hp := by
    have hm := hs.moves p
    rw [hp] at hm
    generalize hold : s.processes p = process at hm
    cases hm with
    | keep => exact hs.task?_kept (h.admitting p n execution hold)
    | advance _ _ _ hrow => exact hrow n execution rfl
  recording p n error task hp := by
    have hm := hs.moves p
    rw [hp] at hm
    generalize hold : s.processes p = process at hm
    cases hm with
    | keep =>
      have hl := (h.locked p (by rw [hold]; trivial)).1
      rw [hs.attemptNumber_of_locked (by simp [hl])]
      exact h.recording p n error task hold
    | record hrun hnum => rw [hrun, hnum]
    | advance hl _ _ _ => exact absurd trivial hl
  inspecting p now task hp := by
    have hm := hs.moves p
    rw [hp] at hm
    rw [(hs.later h.toConsistent).id]
    generalize hold : s.processes p = process at hm
    cases hm with
    | keep =>
      have hl := (h.locked p (by rw [hold]; trivial)).1
      rw [hs.attemptNumber_of_locked (by simp [hl])]
      obtain ⟨hof, hrow⟩ := h.inspecting p now task hold
      exact ⟨hof, fun ht => hs.terminal_kept (hrow ht) ht⟩
    | inspect hstore hrun hr =>
      rw [hstore, hrun]
      exact ⟨List.find?_some hr, fun _ => List.mem_of_find?_eq_some hr⟩
    | advance hl _ _ _ => exact absurd trivial hl
  settled n hn := h.settled_step hs hn
  retry hw := by
    have hset := hs.retry_settled h hok hw
    rcases hs.run_cases h.toConsistent with heq | ⟨_, hsame | ⟨now, _, heq⟩⟩
    · rw [heq]
      exact Settled.step h hs (Nat.le_refl _) hset
    · rw [hsame.attemptNumber]
      exact Settled.step h hs (Nat.le_refl _) hset
    · rw [heq] at hw
      cases hw

end

lemma Initial.orderly (h : Initial s) : Orderly s where
  toConsistent := h.consistent
  attempts p n hp := by
    rw [h.idle p] at hp
    cases hp
  unique p q n hp _ := by
    rw [h.idle p] at hp
    cases hp
  tasks n task ht hof := absurd (ofAttempt_iff.mp hof).1 (h.tasks task ht)
  unopened p n hp := by
    rw [h.idle p] at hp
    simp [Process.Opening] at hp
  admitting p n execution hp := by
    rw [h.idle p] at hp
    cases hp
  recording p n error task hp := by
    rw [h.idle p] at hp
    cases hp
  inspecting p now task hp := by
    rw [h.idle p] at hp
    cases hp
  settled n hn := by
    rw [h.attemptNumber] at hn
    cases hn
  retry hw := by
    rw [h.pending] at hw
    cases hw

lemma Initial.orderly_run (h : Initial s) {events : List Event}
    (hok : Along step FailsSettled s events) : Orderly (run step s events) :=
  hok.invariant (fun s e he hs => hs.step (step_cases s e) he) h.orderly

lemma Orderly.nonOverlapping (h : Orderly s) : NonOverlapping s := by
  intro n hn task ht hof
  have he := (h.settled n hn).ended task ht hof
  refine ⟨mem_terminalStatuses.mpr (.inr he), fun hsuc => ?_⟩
  rw [hsuc] at he
  simp at he

lemma terminal_run (h : task ∈ s.store.tasks.rows)
    (ht : task.status ∈ terminalStatuses) (events : List Event) :
    task ∈ (run step s events).store.tasks.rows :=
  run_invariant (P := fun s : State => task ∈ s.store.tasks.rows) events
    (fun s e hs => (step_cases s e).terminal_kept hs ht) h

end

def CurrentSucceeded (s : State) : Prop :=
  ∃ task ∈ s.store.tasks.rows, ofAttempt s.run.id s.run.attemptNumber task = true ∧
    task.status = .success

structure AttemptsInTurn (s : State) (events : List Event) : Prop where
  ended : ∀ before, before <+: events → NonOverlapping (run step s before)
  final : ∀ before after, before ++ after <+: events → CurrentSucceeded (run step s before) →
    (run step s (before ++ after)).run.attemptNumber = (run step s before).run.attemptNumber

theorem attempts_in_turn {s : State} (h : Initial s) {events : List Event}
    (hok : Along step FailsSettled s events) : AttemptsInTurn s events where
  ended before hprefix := (h.orderly_run (hok.of_isPrefix hprefix)).nonOverlapping
  final before after hprefix hsucceeded := by
    obtain ⟨task, htask, hof, hsuccess⟩ := hsucceeded
    have hlater := later_run (h.consistent_run before) after
    have hkept := terminal_run htask (by simp [hsuccess]) after
    rw [← run_append] at hlater hkept
    by_contra hne
    have hlt := lt_of_le_of_ne hlater.attemptNumber (Ne.symm hne)
    have hin := (h.orderly_run (hok.of_isPrefix hprefix)).nonOverlapping _ hlt task hkept
      (hlater.id ▸ hof)
    exact hin.2 hsuccess

def sampleFailed : List Event :=
  [.reconcile 0 0 false, .checkAttempt 0 false,
    .createPending 0 sampleTime (sampleExecution "task" .scheduler) .returns,
    .enqueueTask 0 sampleTime "dispatch" ⟨"task", ""⟩ .returns, .markRunning 0 0 .returns,
    .task (.claim sampleTime "task" "worker"), .task (.markRunning sampleTime "task" "worker"),
    .task (.finalize sampleTime "task" "worker" .error none none),
    .reconcile 0 (seconds 30) false, .commitInspection 0, .reconcile 0 (seconds 90) false]

theorem attempts_in_turn_sampleFailed : AttemptsInTurn sampleState sampleFailed ∧
    (run step sampleState sampleFailed).run.attemptNumber = 2 ∧
    ∃ task ∈ (run step sampleState sampleFailed).store.tasks.rows,
      ofAttempt "run-1" 1 task = true ∧ task.status = .error :=
  ⟨attempts_in_turn initial_sampleState ⟨trivial, trivial, trivial, trivial, trivial, trivial, trivial,
    trivial, trivial, trivial, trivial, trivial⟩, by decide +kernel, by decide +kernel⟩

theorem attempts_overlap_sampleRetry : ¬ AttemptsInTurn sampleState (sampleStart ++ sampleRetry) := by
  intro h
  have hend := h.ended _ (List.prefix_refl _)
  have hqueued : ∃ task ∈ (run step sampleState (sampleStart ++ sampleRetry)).store.tasks.rows,
      ofAttempt "run-1" 1 task = true ∧ task.status = .queued := by decide +kernel
  obtain ⟨task, htask, hof, hstatus⟩ := hqueued
  have hterminal := (hend 1 (by decide +kernel) task htask hof).1
  simp [hstatus] at hterminal

end Dvt.Scheduling
