import Dvt.Tasks.Repository

/-! Everything one transaction can do to the row of one task. -/

namespace Dvt.Tasks

open Library List Table

variable {taskId : String}

section

variable (now : DateTime) (r : TaskRecord)

@[simp] lemma newTask_status (status : TaskExecutionStatus) (execution : TaskExecution) :
    (newTask now status execution).status = status := rfl

@[simp] lemma markQueued_status : (markQueued now r).status = .queued := rfl

@[simp] lemma supersede_status : (supersede now r).status = .cancelled := rfl

@[simp] lemma markStarted_status (w : String) : (markStarted now w r).status = .started := rfl

@[simp] lemma setRunning_status : (setRunning now r).status = .running := rfl

@[simp] lemma settle_status (status : TaskExecutionStatus) (reason : Option StoredReason)
    (message : Option String) : (settle now status reason message r).status = status := rfl

@[simp] lemma settle_terminationReason (status : TaskExecutionStatus) (reason : Option StoredReason)
    (message : Option String) :
    (settle now status reason message r).terminationReason = reason := rfl

variable (reason : Option StoredReason)

include reason

@[simp] lemma cancelEarly_status : (cancelEarly now reason r).status = .cancelled := rfl

@[simp] lemma cancelEarly_terminationReason :
    (cancelEarly now reason r).terminationReason = reason := rfl

@[simp] lemma markCancelRequested_status :
    (markCancelRequested now reason r).status = .cancelRequested := rfl

end

namespace Store

variable {s : Store} {id : String} {r : TaskRecord}

lemma task?_mem (h : s.task? id = some r) : r ∈ s.tasks.rows := lookup_mem h

lemma task?_id (h : s.task? id = some r) : r.taskId = id := lookup_key h

lemma task?_of_mem (h : r ∈ s.tasks.rows) : s.task? r.taskId = some r :=
  (lookup_eq_some taskId_isKey).mpr ⟨h, rfl⟩

lemma task?_writeTask (taskId : String) (f : TaskRecord → TaskRecord) (hf) (id : String) :
    (s.writeTask taskId f hf).task? id =
      (s.task? id).map fun r => if r.taskId = taskId then f r else r := by
  have hkey : ∀ r, (f r).taskId = r.taskId := fun r => congrArg Prod.fst (hf r)
  have h := lookup_update s.tasks (fun r => r.taskId = taskId) f hf hkey id
  simp only [decide_eq_true_eq] at h
  exact h

variable {f : TaskRecord → TaskRecord}

lemma writeTask_self (hf) (h : s.task? id = some r) :
    (s.writeTask id f hf).task? id = some (f r) := by
  rw [task?_writeTask, h, Option.map_some, if_pos (task?_id h)]

lemma writeTask_of_ne {hf} (hne : id ≠ taskId) :
    (s.writeTask taskId f hf).task? id = s.task? id := by
  rw [task?_writeTask]
  cases h : s.task? id with
  | none => rfl
  | some r =>
    have hr := task?_id h
    rw [Option.map_some, if_neg (by rw [hr]; exact hne)]

end Store

variable {s s' : Store} {task : TaskRecord}

lemma insertTask_ok (h : insertTask s task = .ok s') :
    s'.outbox = s.outbox ∧ s.tasks.insert task = some s'.tasks := by
  rw [insertTask] at h
  split at h
  · cases h
  · split at h
    · cases h
    · next tasks ht =>
      cases h
      exact ⟨rfl, ht⟩

lemma insertTask_task? (h : insertTask s task = .ok s')
    (hn : s.task? task.taskId = none) (id : String) :
    s'.task? id = if task.taskId = id then some task else s.task? id :=
  lookup_insert (insertTask_ok h).2 hn id

variable {projectId : String} {r : TaskRecord}

lemma mem_candidates :
    r ∈ candidates s projectId ↔ r ∈ s.tasks.rows ∧ runnableRoot projectId r = true := by
  rw [candidates, mem_insertionSort, mem_select]

lemma candidate_row (h : r ∈ candidates s projectId) : s.task? r.taskId = some r :=
  Store.task?_of_mem (mem_candidates.mp h).1

lemma runnableRoot_iff : runnableRoot projectId r = true ↔
      r.projectId = projectId ∧ r.source ≠ .node ∧ (r.status = .pending ∨ r.status = .queued) := by
  simp [runnableRoot]

def staleIds (s : Store) (projectId : String) : List String :=
  (candidates s projectId).tail.map TaskRecord.taskId

@[simp] lemma supersedeAll_nil (now : DateTime) (s : Store) : supersedeAll now [] s = s := by
  have ht := update_eq_self s.tasks (fun r => r.taskId ∈ ([] : List String)) (supersede now)
    (fun _ => rfl) (by simp)
  have ho := update_eq_self s.outbox
    (fun d => d.taskId ∈ ([] : List String) ∧ d.publishedAt = none) cancelDispatch (fun _ => rfl)
    (by simp)
  cases s
  simp only [supersedeAll, Store.mk.injEq]
  exact ⟨ht, ho⟩

lemma coalesce_eq (now : DateTime) (current : TaskRecord) (s : Store) :
    coalesceRootExecutions now current s =
      (if current.taskId ∈ staleIds s current.projectId then supersede now current else current,
        (candidates s current.projectId).tail.map toEntity,
        supersedeAll now (staleIds s current.projectId) s) := by
  rw [coalesceRootExecutions, staleIds]
  cases h : candidates s current.projectId with
  | nil => simp
  | cons freshest stale =>
    simp only [tail_cons]
    split
    · next he =>
      subst he
      simp
    · rfl

lemma supersedeAll_task? (now : DateTime) (ids : List String) (s : Store) (id : String) :
    (supersedeAll now ids s).task? id =
      (s.task? id).map fun r => if r.taskId ∈ ids then supersede now r else r := by
  have h := lookup_update s.tasks (fun r => r.taskId ∈ ids) (supersede now) (fun _ => rfl)
    (fun r => show TaskRecord.taskId (supersede now r) = r.taskId from rfl) id
  simp only [decide_eq_true_eq] at h
  exact h

lemma mem_staleIds (hr : r ∈ s.tasks.rows)
    (h : r.taskId ∈ staleIds s projectId) : runnableRoot projectId r = true := by
  obtain ⟨q, hq, hid⟩ := mem_map.mp h
  obtain ⟨hqs, hrun⟩ := mem_candidates.mp (mem_of_mem_tail hq)
  obtain rfl := eq_of_key taskId_isKey hqs hr hid
  exact hrun

def coalesced (job : Enqueue) (task : TaskRecord) (s : Store) :
    TaskRecord × List TaskExecution × Store :=
  if job.source ∈ rootExecutionSources then coalesceRootExecutions job.now task s
  else (task, [], s)

section

variable {job : Enqueue} {result : EnqueueTaskResult}

lemma dispatchQueued_ok (h : dispatchQueued job task s = .ok (result, s')) :
    let c := coalesced job task s
    result = ⟨toEntity c.1, c.2.1⟩ ∧ s'.tasks = c.2.2.tasks ∧
      ((job.source ∈ rootExecutionSources ∧ c.1.status = .cancelled) ∧ s'.outbox = c.2.2.outbox ∨
        (c.2.2.dispatch? job.taskId).isSome ∧ s'.outbox = c.2.2.outbox ∨
        c.2.2.dispatch? job.taskId = none ∧ c.2.2.outbox.insert job.dispatch = some s'.outbox) := by
  rw [dispatchQueued] at h
  dsimp only [coalesced]
  generalize (if job.source ∈ rootExecutionSources then coalesceRootExecutions job.now task s
    else (task, [], s)) = c at h ⊢
  dsimp only at h ⊢
  split at h
  · next hc =>
    cases h
    exact ⟨rfl, rfl, .inl ⟨hc, rfl⟩⟩
  · split at h
    · next hd =>
      cases h
      exact ⟨rfl, rfl, .inr (.inl ⟨by rw [hd]; rfl, rfl⟩)⟩
    · next hd =>
      split at h
      · cases h
      · next hi =>
        cases h
        exact ⟨rfl, rfl, .inr (.inr ⟨hd, hi⟩)⟩

lemma coalesced_store (job : Enqueue) (task : TaskRecord) (s : Store) : (coalesced job task s).2.2 =
      if job.source ∈ rootExecutionSources then
        supersedeAll job.now (staleIds s task.projectId) s else s := by
  rw [coalesced]
  split
  · rw [coalesce_eq]
  · rfl

lemma coalesced_current (job : Enqueue) (h : s.task? task.taskId = some task) :
    (coalesced job task s).2.2.task? task.taskId = some (coalesced job task s).1 := by
  rw [coalesced]
  split
  · rw [coalesce_eq, supersedeAll_task?, h]
    rfl
  · exact h

lemma dispatchQueued_task? (h : dispatchQueued job task s = .ok (result, s')) (id : String) :
    s'.task? id = s.task? id ∨ ∃ r, s.task? id = some r ∧ (r.status = .pending ∨ r.status = .queued) ∧
      s'.task? id = some (supersede job.now r) := by
  have ht := (dispatchQueued_ok h).2.1
  rw [coalesced_store] at ht
  split at ht
  · have hl : s'.task? id = (supersedeAll job.now (staleIds s task.projectId) s).task? id := by
      rw [Store.task?, ht, Store.task?]
    rw [hl, supersedeAll_task?]
    cases hr : s.task? id with
    | none => exact .inl rfl
    | some r =>
      simp only [Option.map_some]
      split
      · next hmem =>
        have hrun := runnableRoot_iff.mp (mem_staleIds (Store.task?_mem hr) hmem)
        exact .inr ⟨r, rfl, hrun.2.2, rfl⟩
      · exact .inl rfl
  · exact .inl (by rw [Store.task?, ht, Store.task?])

inductive Admits (job : Enqueue) : Option TaskRecord → TaskRecord → Prop
  | new : Admits job none (newTask job.now .queued job.toTaskExecution)
  | pending {r : TaskRecord} : r.status = .pending → Admits job (some r) (markQueued job.now r)
  | queued {r : TaskRecord} : r.status = .queued → Admits job (some r) r

lemma Admits.status {o : Option TaskRecord} (h : Admits job o r) : r.status = .queued := by
  cases h with
  | new | pending _ => rfl
  | queued h => exact h

lemma enqueueWithDispatch_ok (h : enqueueWithDispatch job s = .ok (result, s')) :
    (∃ r, s.task? job.taskId = some r ∧ ¬ (r.status = .pending ∨ r.status = .queued) ∧
      result = ⟨toEntity r, []⟩ ∧ s' = s) ∨
    ∃ task s₁, Admits job (s.task? job.taskId) task ∧
      (∀ id, s₁.task? id = if job.taskId = id then some task else s.task? id) ∧
      s₁.outbox = s.outbox ∧
      dispatchQueued job task s₁ = .ok (result, s') := by
  rw [enqueueWithDispatch] at h
  cases ho : s.task? job.taskId with
  | none =>
    simp only [ho] at h
    cases hi : insertTask s (newTask job.now .queued job.toTaskExecution) with
    | error e =>
      rw [hi] at h
      cases h
    | ok s₁ =>
      rw [hi] at h
      exact .inr ⟨_, s₁, .new, insertTask_task? hi ho, (insertTask_ok hi).1, h⟩
  | some r =>
    simp only [ho] at h
    split at h
    · next hp =>
      refine .inr ⟨_, s.writeTask job.taskId (markQueued job.now) fun _ => rfl, .pending hp, ?_,
        rfl, h⟩
      intro id
      split
      · next he => exact he ▸ Store.writeTask_self _ ho
      · next he => exact Store.writeTask_of_ne (Ne.symm he)
    · next hp =>
      split at h
      · next hq =>
        cases h
        exact .inl ⟨r, rfl, by simp [hp, hq], rfl, rfl⟩
      · next hq =>
        refine .inr ⟨r, s, .queued (not_not.mp hq), ?_, rfl, h⟩
        intro id
        split
        · next he => rw [← he, ho]
        · rfl

lemma createPending_ok {now : DateTime} {execution result : TaskExecution}
    (h : createPending now execution s = .ok (result, s')) :
    ∃ r, s'.task? execution.taskId = some r := by
  rw [createPending] at h
  cases ho : s.task? execution.taskId with
  | some r =>
    simp only [ho] at h
    cases h
    exact ⟨r, ho⟩
  | none =>
    simp only [ho] at h
    cases hi : insertTask s (newTask now .pending execution) with
    | error e =>
      rw [hi] at h
      cases h
    | ok s₁ =>
      rw [hi] at h
      cases h
      exact ⟨_, (insertTask_task? hi ho _).trans (if_pos rfl)⟩

end

inductive RowStep (id : String) : Transaction → Option TaskRecord → Option TaskRecord → Prop
  | keep {t o} : RowStep id t o o
  | created {now} {execution : TaskExecution} : execution.taskId = id →
      RowStep id (.createPending now execution) none (some (newTask now .pending execution))
  | admitted {job : Enqueue} {o r} : job.taskId = id → Admits job o r →
      RowStep id (.enqueueWithDispatch job) o (some r)
  | admittedStale {job : Enqueue} {o r} : job.taskId = id → Admits job o r →
      RowStep id (.enqueueWithDispatch job) o (some (supersede job.now r))
  | superseded {job} {r : TaskRecord} : r.status = .pending ∨ r.status = .queued →
      RowStep id (.enqueueWithDispatch job) (some r) (some (supersede job.now r))
  | claimed {now w} {r : TaskRecord} : r.status = .queued ∨ r.status = .assigned →
      RowStep id (.claim now id w) (some r) (some (markStarted now w r))
  | running {now w} {r : TaskRecord} : r.status = .started → r.assignedWorkerId = some w →
      RowStep id (.markRunning now id w) (some r) (some (setRunning now r))
  | finalized {now w status message reason} {r : TaskRecord} : status ∈ terminalStatuses →
      finalizeAllowed w status reason r = true →
      RowStep id (.finalize now id w status message reason) (some r)
        (some (settle now status ((finalizeReason r.terminationReason reason).or r.terminationReason)
          message r))
  | reconciled {now reason message} {r : TaskRecord} : reconcilable reason r = true →
      RowStep id (.finalizeReconciled now id reason message) (some r) (some (settle now
          (terminalStatusForTerminationReason (chooseTerminationReason r.terminationReason reason false))
          (chooseTerminationReason r.terminationReason reason false) message r))
  | failed {now reason message} {r : TaskRecord} : r.status = .pending →
      RowStep id (.failPending now id reason message) (some r)
        (some (settle now .error (reason.or r.terminationReason) message r))
  | cancelledEarly {now reason hard} {r : TaskRecord} : r.status = .pending ∨ r.status = .queued →
      RowStep id (.requestStop now id reason hard) (some r)
        (some (cancelEarly now (chooseTerminationReason r.terminationReason (some reason) hard) r))
  | cancelRequested {now reason hard} {r : TaskRecord} : r.status ∉ terminalStatuses →
      ¬ (r.status = .pending ∨ r.status = .queued) →
      RowStep id (.requestStop now id reason hard) (some r) (some (markCancelRequested now
          (chooseTerminationReason r.terminationReason (some reason) hard) r))

section

variable (s : Store) (id : String) (now : DateTime) (taskId w : String) (execution : TaskExecution)
  (message : Option String) (reason : Option StoredReason)

lemma createPending_row : RowStep id (.createPending now execution) (s.task? id)
      (((Transaction.createPending now execution).apply s).task? id) := by
  simp only [Transaction.apply, createPending]
  cases ho : s.task? execution.taskId with
  | some r => exact .keep
  | none =>
    cases hi : insertTask s (newTask now .pending execution) with
    | error e => exact .keep
    | ok s' =>
      simp only [committed, insertTask_task? hi ho]
      split
      · next he =>
        have hid : execution.taskId = id := he
        rw [← hid, ho]
        exact .created rfl
      · exact .keep

lemma enqueueWithDispatch_row (job : Enqueue) : RowStep id (.enqueueWithDispatch job) (s.task? id)
      (((Transaction.enqueueWithDispatch job).apply s).task? id) := by
  simp only [Transaction.apply]
  cases he : enqueueWithDispatch job s with
  | error e => exact .keep
  | ok p =>
    simp only [committed]
    rcases enqueueWithDispatch_ok he with ⟨_, _, _, _, rfl⟩ | ⟨task, s₁, ha, hs, _, hd⟩
    · exact .keep
    have hrow := dispatchQueued_task? hd id
    rw [hs id] at hrow
    by_cases hid : job.taskId = id
    · subst hid
      rw [if_pos rfl] at hrow
      rcases hrow with h | ⟨r, h, _, h'⟩
      · exact h ▸ .admitted rfl ha
      · cases h
        exact h' ▸ .admittedStale rfl ha
    · rw [if_neg hid] at hrow
      rcases hrow with h | ⟨r, h, hr, h'⟩
      · exact h ▸ .keep
      · rw [h, h']
        exact .superseded hr

lemma update_row {t : Transaction} (p : TaskRecord → Bool) (f : TaskRecord → TaskRecord) (hf)
    (hkey : ∀ r, (f r).taskId = r.taskId)
    (h : ∀ r, r.taskId = id → p r = true → RowStep id t (some r) (some (f r))) :
    RowStep id t (s.task? id) (Store.task? { s with tasks := s.tasks.update p f hf } id) := by
  have hl : Store.task? { s with tasks := s.tasks.update p f hf } id = (s.task? id).map _ :=
    lookup_update s.tasks p f hf hkey id
  rw [hl]
  cases ho : s.task? id with
  | none => exact .keep
  | some r =>
    simp only [Option.map_some]
    split
    · next hp => exact h r (Store.task?_id ho) hp
    · exact .keep

lemma claim_row : RowStep id (.claim now taskId w) (s.task? id)
    (((Transaction.claim now taskId w).apply s).task? id) := by
  refine update_row s id (claimable taskId) (markStarted now w) (fun _ => rfl) (fun _ => rfl)
    fun r hid hc => ?_
  obtain ⟨rfl, hst⟩ : r.taskId = taskId ∧ (r.status = .queued ∨ r.status = .assigned) := by
    simpa [claimable] using hc
  exact hid ▸ .claimed hst

lemma markRunning_row : RowStep id (.markRunning now taskId w) (s.task? id)
    (((Transaction.markRunning now taskId w).apply s).task? id) := by
  refine update_row s id (startedBy taskId w) (setRunning now) (fun _ => rfl) (fun _ => rfl)
    fun r hid hc => ?_
  obtain ⟨rfl, hst, hw⟩ : r.taskId = taskId ∧ r.status = .started ∧ r.assignedWorkerId = some w := by
    simpa [startedBy] using hc
  exact hid ▸ .running hst hw

variable {taskId} in
lemma writeTask_row {t : Transaction} {r : TaskRecord} {f : TaskRecord → TaskRecord}
    (hf) (ho : s.task? taskId = some r) (h : taskId = id → RowStep id t (some r) (some (f r))) :
    RowStep id t (s.task? id) ((s.writeTask taskId f hf).task? id) := by
  by_cases hid : taskId = id
  · subst hid
    rw [Store.writeTask_self hf ho, ho]
    exact h rfl
  · rw [Store.writeTask_of_ne (Ne.symm hid)]
    exact .keep

lemma finalize_row (status : TaskExecutionStatus) :
    RowStep id (.finalize now taskId w status message reason) (s.task? id)
      (((Transaction.finalize now taskId w status message reason).apply s).task? id) := by
  simp only [Transaction.apply, finalize]
  split
  · exact .keep
  · next hst =>
    cases ho : s.task? taskId with
    | none => exact .keep
    | some r =>
      simp only
      split
      · next ha =>
        refine writeTask_row s id _ ho ?_
        rintro rfl
        exact .finalized (not_not.mp hst) ha
      · exact .keep

lemma finalizeReconciled_row :
    RowStep id (.finalizeReconciled now taskId reason message) (s.task? id)
      (((Transaction.finalizeReconciled now taskId reason message).apply s).task? id) := by
  simp only [Transaction.apply, finalizeReconciled]
  cases ho : s.task? taskId with
  | none => exact .keep
  | some r =>
    simp only
    split
    · next ha =>
      refine writeTask_row s id _ ho ?_
      rintro rfl
      exact .reconciled ha
    · exact .keep

lemma failPending_row : RowStep id (.failPending now taskId reason message) (s.task? id)
      (((Transaction.failPending now taskId reason message).apply s).task? id) := by
  simp only [Transaction.apply, failPending]
  cases ho : s.task? taskId with
  | none => exact .keep
  | some r =>
    simp only
    split
    · exact .keep
    · split
      · exact .keep
      · next hp =>
        refine writeTask_row s id _ ho ?_
        rintro rfl
        exact .failed (not_not.mp hp)

lemma requestStop_row (reason : StoredReason) (hard : Bool) :
    RowStep id (.requestStop now taskId reason hard) (s.task? id)
      (((Transaction.requestStop now taskId reason hard).apply s).task? id) := by
  simp only [Transaction.apply, requestStop]
  cases ho : s.task? taskId with
  | none => exact .keep
  | some r =>
    simp only
    split
    · exact .keep
    · next ht =>
      split
      · next hp =>
        refine writeTask_row s id (f := cancelEarly now _) (fun _ => rfl) ho ?_
        rintro rfl
        exact .cancelledEarly hp
      · next hp =>
        refine writeTask_row s id _ ho ?_
        rintro rfl
        exact .cancelRequested ht hp

theorem apply_row (t : Transaction) : RowStep id t (s.task? id) ((t.apply s).task? id) := by
  cases t with
  | createPending now execution => exact createPending_row ..
  | enqueueWithDispatch job => exact enqueueWithDispatch_row ..
  | claim now taskId w => exact claim_row ..
  | markRunning now taskId w => exact markRunning_row ..
  | finalize now taskId w status message reason => exact finalize_row ..
  | finalizeReconciled now taskId reason message => exact finalizeReconciled_row ..
  | failPending now taskId reason message => exact failPending_row ..
  | requestStop now taskId reason hard => exact requestStop_row ..
  | markDispatchPublished now dispatchId | recordDispatchFailure dispatchId error => exact .keep

end

end Dvt.Tasks
