import Dvt.Orchestrator.Supervisor
import Dvt.Tasks.Lifecycle

/-! What each pending command of a pass may rely on, whatever ran in between. -/

namespace Dvt.Orchestrator

open Library Tasks List Table

variable {cfg : Config} {s : Shared} {nowTs : ℤ} {now : DateTime} {taskId : String}
variable {t : Reservations} {message : Option String}

def OpenTask (s : Shared) (taskId : String) : Prop :=
  ∃ r, s.store.task? taskId = some r ∧ r.status ∉ terminalStatuses

def Alive (cfg : Config) (s : Shared) (workerId : String) : Prop :=
  workerAlive cfg s s.clock workerId = true

structure Live (cfg : Config) (s : Shared) (r : NestedWaitReservation) : Prop where
  stored : r ∈ s.reservations.rows
  parent : OpenTask s r.parentTaskId
  child : OpenTask s r.childTaskId
  worker : Alive cfg s r.originWorkerId

instance (s : Shared) (taskId : String) : Decidable (OpenTask s taskId) :=
  decidable_of_iff ((s.store.task? taskId).any (fun r => r.status ∉ terminalStatuses) = true)
    (by simp [OpenTask, Option.any_eq_true])

instance (cfg : Config) (s : Shared) (r : NestedWaitReservation) : Decidable (Live cfg s r) :=
  decidable_of_iff (r ∈ s.reservations.rows ∧ OpenTask s r.parentTaskId ∧
      OpenTask s r.childTaskId ∧ workerAlive cfg s s.clock r.originWorkerId = true)
    ⟨fun ⟨stored, parent, child, worker⟩ => ⟨stored, parent, child, worker⟩,
      fun h => ⟨h.stored, h.parent, h.child, h.worker⟩⟩

structure Later (cfg : Config) (s s' : Shared) : Prop where
  clock : s.clock ≤ s'.clock
  reservations : s'.reservations.rows ⊆ s.reservations.rows
  dead : ∀ w, ¬ Alive cfg s w → ¬ Alive cfg s' w
  stored : ∀ id, (s.store.task? id).isSome → (s'.store.task? id).isSome
  closed : ∀ id, ¬ OpenTask s id → ¬ OpenTask s' id

lemma Later.refl (cfg : Config) (s : Shared) : Later cfg s s :=
  ⟨le_rfl, List.Subset.refl _, fun _ h => h, fun _ h => h, fun _ h => h⟩

variable {workerId : String}

lemma alive_iff : workerAlive cfg s nowTs workerId = true ↔ ∃ w, s.workers.get workerId = some w ∧
      w.status = .online ∧ nowTs - w.lastReceivedAt < cfg.heartbeatTimeout := by
  simp only [workerAlive, Option.any_eq_true, WorkerState.isAlive, decide_eq_true_eq]

lemma not_alive_of_le (hle : nowTs ≤ s.clock)
    (h : workerAlive cfg s nowTs workerId = false) : ¬ Alive cfg s workerId := by
  intro ha
  obtain ⟨w, hw, hst, hage⟩ := alive_iff.mp ha
  have : workerAlive cfg s nowTs workerId = true := alive_iff.mpr ⟨w, hw, hst, by omega⟩
  simp [h] at this

variable {p : WorkerState → Bool} {f : WorkerState → WorkerState}

lemma dead_of_update {hf}
    (hid : ∀ w, (f w).workerId = w.workerId) (hat : ∀ w, (f w).lastReceivedAt = w.lastReceivedAt)
    (hst : ∀ w, (f w).status = .online → w.status = .online) (h : ¬ Alive cfg s workerId) :
    ¬ Alive cfg { s with workers := s.workers.update p f hf } workerId := by
  intro ha
  obtain ⟨w, hw, hon, hage⟩ := alive_iff.mp ha
  have hl : WorkerRegistry.get (s.workers.update p f hf) workerId =
      (s.workers.get workerId).map _ := lookup_update s.workers p f hf hid workerId
  obtain ⟨q, hq, rfl⟩ := Option.map_eq_some_iff.mp (hl.symm.trans hw)
  refine h (alive_iff.mpr ⟨q, hq, ?_⟩)
  split at hon
  · next hp =>
    simp only [hp, if_true, hat] at hage
    exact ⟨hst q hon, hage⟩
  · next hp =>
    simp only [hp] at hage
    exact ⟨hon, hage⟩

lemma later_workers (hf)
    (hid : ∀ w, (f w).workerId = w.workerId) (hat : ∀ w, (f w).lastReceivedAt = w.lastReceivedAt)
    (hst : ∀ w, (f w).status = .online → w.status = .online) :
    Later cfg s { s with workers := s.workers.update p f hf } :=
  ⟨le_rfl, List.Subset.refl _, fun _ => dead_of_update hid hat hst, fun _ h => h, fun _ h => h⟩

lemma later_store {t : Transaction} {store : Store} (hstore : store = t.apply s.store)
    (hnew : ∀ id o, RowStep id t none o → o = none) : Later cfg s { s with store } := by
  subst hstore
  refine ⟨le_rfl, List.Subset.refl _, fun _ h => h, ?_, ?_⟩
  · intro id h
    obtain ⟨r, hr⟩ := Option.isSome_iff_exists.mp h
    have hrow := apply_row s.store id t
    rw [hr] at hrow
    obtain ⟨r', hr', _⟩ := hrow.follows
    exact Option.isSome_iff_exists.mpr ⟨r', hr'⟩
  · rintro id hn ⟨r', hr', hopen⟩
    have hrow := apply_row s.store id t
    rw [hr'] at hrow
    cases ho : s.store.task? id with
    | none =>
      rw [ho] at hrow
      cases hnew id _ hrow
    | some r =>
      rw [ho] at hrow
      by_cases ht : r.status ∈ terminalStatuses
      · obtain rfl := Option.some.inj (hrow.terminal ht)
        exact hopen ht
      · exact hn ⟨r, ho, ht⟩

lemma later_reservations (h : t.rows ⊆ s.reservations.rows) :
    Later cfg s { s with reservations := t } :=
  ⟨le_rfl, h, fun _ h => h, fun _ h => h, fun _ h => h⟩

lemma hdel_subset (t : Reservations) (parents : List String) : (t.hdel parents).rows ⊆ t.rows :=
  filter_subset_self _

lemma releaseStep_subset (t : Reservations) (program : List ReleaseCommand) :
    (releaseStep t program).1.rows ⊆ t.rows := by
  cases program with
  | nil => exact List.Subset.refl _
  | cons command rest =>
    cases command with
    | byParent parentTaskId => exact hdel_subset t _
    | scanChild childTaskId | scanWorker workerId => exact List.Subset.refl _
    | hdel parents => exact hdel_subset t _

lemma finalizeReconciled_later (taskId : String) (reason : Option StoredReason)
    (message : Option String) :
    Later cfg s { s with store := (finalizeReconciled now taskId reason message s.store).2 } := by
  refine later_store (t := .finalizeReconciled now taskId reason message) rfl ?_
  intro id o h
  cases h with
  | keep => rfl

lemma requestStop_later (taskId : String) (reason : StoredReason) (hard : Bool) :
    Later cfg s { s with store := (requestStop now taskId reason hard s.store).2 } := by
  refine later_store (t := .requestStop now taskId reason hard) rfl ?_
  intro id o h
  cases h with
  | keep => rfl

variable {store : Store}

lemma finalizeReconciled_closed {reason : Option StoredReason}
    (h : (finalizeReconciled now taskId reason message store).1 ≠ none) :
    ∃ r, (finalizeReconciled now taskId reason message store).2.task? taskId = some r ∧
      r.status ∈ terminalStatuses := by
  rw [finalizeReconciled] at h ⊢
  cases hr : store.task? taskId with
  | none =>
    rw [hr] at h
    exact absurd rfl h
  | some r =>
    rw [hr] at h
    simp only at h ⊢
    split
    · refine ⟨_, Store.writeTask_self _ hr, ?_⟩
      rcases terminalStatus_mem (chooseTerminationReason r.terminationReason reason false) with he | he
      · simp [he]
      · simp [he]
    · next hn =>
      rw [if_neg hn] at h
      exact absurd rfl h

lemma requestStop_returns {reason : StoredReason} {hard : Bool} :
    (requestStop now taskId reason hard store).1 =
      ((requestStop now taskId reason hard store).2.task? taskId).map toEntity := by
  rw [requestStop]
  cases hr : store.task? taskId with
  | none => simp [hr]
  | some r =>
    simp only
    split
    · simp [hr]
    · split
      · exact congrArg (Option.map toEntity)
          (Store.writeTask_self (f := cancelEarly now _) (fun _ => rfl) hr).symm
      · exact congrArg (Option.map toEntity)
          (Store.writeTask_self (f := markCancelRequested now _) (fun _ => rfl) hr).symm

lemma checkActive_later (nowTs : ℤ) (task : TaskExecution) :
    Later cfg s (checkActive cfg s nowTs task).1 := by
  rw [checkActive]
  split
  · exact Later.refl cfg s
  · split
    · exact later_workers _ (fun _ => rfl) (fun _ => rfl) fun _ h => h
    · split
      · exact Later.refl cfg s
      · exact Later.refl cfg s

lemma hardStop_later (taskId : String) : Later cfg s (hardStop now s taskId).1 := by
  have hl : Later cfg s { s with store :=
      (requestStop now taskId (.known .nestedWaitCapacityLost) true s.store).2 } :=
    requestStop_later taskId _ true
  rw [hardStop]
  dsimp only
  split
  · exact hl
  · exact ⟨hl.clock, hl.reservations, hl.dead, hl.stored, hl.closed⟩

theorem exec_later (command : Command) : Later cfg s (exec cfg now s command).1 := by
  cases command with
  | reapDeadWorkers nowTs =>
    refine later_workers _ (fun _ => rfl) (fun _ => rfl) ?_
    rintro w ⟨⟩
  | listActive nowTs => exact Later.refl cfg s
  | checkActive nowTs task => exact checkActive_later nowTs task
  | finalizeLost task workerId => exact finalizeReconciled_later task.taskId _ _
  | listStale nowTs activeIds => exact Later.refl cfg s
  | forgetTelemetry taskId =>
    exact ⟨le_rfl, List.Subset.refl _, fun _ h => h, fun _ h => h, fun _ h => h⟩
  | markIdle workerId taskId => exact later_workers _ (fun _ => rfl) (fun _ => rfl) fun _ h => h
  | release grounds command => exact later_reservations (releaseStep_subset s.reservations _)
  | listCancelRequested | checkCancelRequested nowTs task => exact Later.refl cfg s
  | finalizeCancelRequested task status message =>
    simp only [exec, finalizeCancelRequested]
    split
    · exact finalizeReconciled_later task.taskId _ _
    · exact Later.refl cfg s
  | listReservations | inspectWorker nowTs reservation | inspectParent reservation alive
  | inspectChild reservation dead => exact Later.refl cfg s
  | rebalance nowTs => exact later_reservations fun _ hr =>
      (s.reservations.rebalance_perm _).subset (mem_append_right _ hr)
  | hardStop taskId => exact hardStop_later taskId

variable {s' : Shared}

def Only (s : Shared) (r : NestedWaitReservation) : Prop :=
  ∀ q ∈ s.reservations.rows, q.parentTaskId = r.parentTaskId → q = r

def Justified (cfg : Config) (s : Shared) : Grounds → ReleaseCommand → Prop
  | .closedTask taskId, .byParent parentTaskId => ¬ OpenTask s taskId ∧ parentTaskId = taskId
  | .closedTask taskId, .scanChild childTaskId => ¬ OpenTask s taskId ∧ childTaskId = taskId
  | .closedTask taskId, .hdel parents => ¬ OpenTask s taskId ∧
      ∀ r ∈ s.reservations.rows, r.parentTaskId ∈ parents → r.childTaskId = taskId
  | .closedTask _, .scanWorker _ => False
  | .lostWorker workerId, .scanWorker scanned => ¬ Alive cfg s workerId ∧ scanned = workerId
  | .lostWorker workerId, .hdel parents => ¬ Alive cfg s workerId ∧
      ∀ r ∈ s.reservations.rows, r.parentTaskId ∈ parents → r.originWorkerId = workerId
  | .lostWorker _, .byParent _ => False
  | .lostWorker _, .scanChild _ => False
  | .deadReservation r, .byParent parentTaskId => parentTaskId = r.parentTaskId ∧ Only s r ∧
      (¬ Alive cfg s r.originWorkerId ∨ ¬ OpenTask s r.parentTaskId ∨ ¬ OpenTask s r.childTaskId)
  | .deadReservation _, _ => False
  | .workerOfFinalized _, _ => True
  | .orphanTelemetry _, _ => True

def Command.Knows (cfg : Config) (s : Shared) : Command → Prop
  | .listActive nowTs => nowTs ≤ s.clock
  | .checkActive nowTs _ => nowTs ≤ s.clock
  | .finalizeLost _ workerId => ¬ Alive cfg s workerId
  | .release grounds command => Justified cfg s grounds command
  | .inspectWorker nowTs r => nowTs ≤ s.clock ∧ Only s r
  | .inspectParent r alive => Only s r ∧ (alive = false → ¬ Alive cfg s r.originWorkerId)
  | .inspectChild r dead => Only s r ∧
      (dead = true → ¬ Alive cfg s r.originWorkerId ∨ ¬ OpenTask s r.parentTaskId) ∧
      (dead = false → (s.store.task? r.parentTaskId).isSome)
  | .hardStop taskId => (s.store.task? taskId).isSome
  | _ => True

variable {r : NestedWaitReservation}

lemma Only.later (hl : Later cfg s s') (h : Only s r) : Only s' r :=
  fun q hq => h q (hl.reservations hq)

variable {grounds : Grounds} {command : ReleaseCommand}

lemma Justified.later (hl : Later cfg s s')
    (h : Justified cfg s grounds command) : Justified cfg s' grounds command := by
  cases grounds with
  | closedTask taskId =>
    cases command with
    | byParent parentTaskId | scanChild childTaskId => exact ⟨hl.closed _ h.1, h.2⟩
    | hdel parents => exact ⟨hl.closed _ h.1, fun r hr => h.2 r (hl.reservations hr)⟩
    | scanWorker workerId => exact h
  | lostWorker workerId =>
    cases command with
    | scanWorker scanned => exact ⟨hl.dead _ h.1, h.2⟩
    | hdel parents => exact ⟨hl.dead _ h.1, fun r hr => h.2 r (hl.reservations hr)⟩
    | byParent parentTaskId | scanChild childTaskId => exact h
  | deadReservation r =>
    cases command with
    | byParent parentTaskId =>
      obtain ⟨hp, ho, hd⟩ := h
      exact ⟨hp, ho.later hl, hd.imp (hl.dead _) (Or.imp (hl.closed _) (hl.closed _))⟩
    | scanWorker scanned | hdel parents | scanChild childTaskId => exact h
  | workerOfFinalized workerId | orphanTelemetry record => trivial

lemma Command.Knows.later (hl : Later cfg s s') {command : Command} (h : command.Knows cfg s) :
    command.Knows cfg s' := by
  cases command with
  | listActive nowTs | checkActive nowTs task => exact le_trans h hl.clock
  | finalizeLost task workerId => exact hl.dead workerId h
  | release grounds command => exact Justified.later hl h
  | inspectWorker nowTs r => exact ⟨le_trans h.1 hl.clock, h.2.later hl⟩
  | inspectParent r alive => exact ⟨h.1.later hl, fun ha => hl.dead _ (h.2 ha)⟩
  | inspectChild r dead =>
    obtain ⟨ho, hd, hs⟩ := h
    exact ⟨ho.later hl, fun he => (hd he).imp (hl.dead _) (hl.closed _),
      fun he => hl.stored _ (hs he)⟩
  | hardStop taskId => exact hl.stored taskId h
  | _ => trivial

lemma matching_mem {p : NestedWaitReservation → Bool}
    (hr : r ∈ t.rows) (h : r.parentTaskId ∈ matching t p) : p r = true := by
  obtain ⟨q, hq, he⟩ := mem_map.mp h
  obtain ⟨hmem, hp⟩ := mem_select.mp hq
  obtain rfl := eq_of_key parent_isKey hmem hr he
  exact hp

lemma Justified.next (h : Justified cfg s grounds command) :
    ∀ next ∈ (releaseStep s.reservations [command]).2, Justified cfg s grounds next := by
  intro next hn
  cases command with
  | byParent parentTaskId | hdel parents => cases hn
  | scanChild childTaskId =>
    obtain rfl := mem_singleton.mp hn
    cases grounds with
    | closedTask taskId =>
      refine ⟨h.1, fun r hr hm => ?_⟩
      exact (of_decide_eq_true (matching_mem hr hm)).trans h.2
    | lostWorker workerId | deadReservation r => exact h.elim
    | workerOfFinalized workerId | orphanTelemetry record => trivial
  | scanWorker scanned =>
    obtain rfl := mem_singleton.mp hn
    cases grounds with
    | closedTask taskId => exact h.elim
    | lostWorker workerId =>
      refine ⟨h.1, fun r hr hm => ?_⟩
      exact (of_decide_eq_true (matching_mem hr hm)).trans h.2
    | deadReservation r => exact h.elim
    | workerOfFinalized workerId | orphanTelemetry record => trivial

lemma not_openTask {r : TaskRecord} (hr : s.store.task? taskId = some r)
    (h : r.status ∈ terminalStatuses) : ¬ OpenTask s taskId := by
  rintro ⟨q, hq, hopen⟩
  cases hr.symm.trans hq
  exact hopen h

lemma not_openTask_iff :
    ¬ OpenTask s taskId ↔ s.store.task? taskId = none ∨ isTerminal (s.store.task? taskId) = true := by
  constructor
  · intro h
    cases hr : s.store.task? taskId with
    | none => exact .inl rfl
    | some r =>
      refine .inr ?_
      by_contra hn
      exact h ⟨r, hr, by simpa [isTerminal] using hn⟩
  · rintro (h | h) ⟨r, hr, hopen⟩
    · cases h.symm.trans hr
    · rw [hr] at h
      exact hopen (by simpa [isTerminal] using h)

variable {task : TaskExecution}

lemma checkActive_knows (h : nowTs ≤ s.clock) :
    ∀ next ∈ (checkActive cfg s nowTs task).2, next.Knows cfg (checkActive cfg s nowTs task).1 := by
  rw [checkActive]
  intro next hn
  split at hn
  · cases hn
  · next w _ =>
    split at hn
    · cases hn
    · next hd =>
      split at hn
      · cases hn
      · next hg =>
        obtain rfl := mem_singleton.mp hn
        rw [if_neg hd, if_neg hg]
        exact not_alive_of_le h (Bool.not_eq_true _ ▸ hd)

lemma finalizeLost_knows {workerId : String} (h : ¬ Alive cfg s workerId) :
    ∀ next ∈ (finalizeLost now s task workerId).2,
      next.Knows cfg (finalizeLost now s task workerId).1 := by
  intro next hn
  simp only [finalizeLost] at hn ⊢
  split at hn
  · cases hn
  · next hf =>
    obtain ⟨r, hr, ht⟩ := finalizeReconciled_closed hf
    have hc := not_openTask (s := { s with store := (finalizeReconciled now task.taskId
      (some (.known .workerLost)) (some "Task worker heartbeat was lost") s.store).2 }) hr ht
    simp only [cleanupRuntime, mem_cons, not_mem_nil, or_false] at hn
    rcases hn with rfl | rfl | rfl | rfl | rfl
    · trivial
    · trivial
    · exact ⟨hc, rfl⟩
    · exact ⟨hc, rfl⟩
    · exact ⟨h, rfl⟩

lemma listStale_knows {activeIds : List String} :
    ∀ next ∈ listStale cfg s nowTs activeIds, next.Knows cfg s := by
  intro next hn
  obtain ⟨commands, hc, hn⟩ := mem_flatten.mp hn
  obtain ⟨record, _, rfl⟩ := mem_map.mp hc
  simp only [cleanupRuntime, mem_cons, not_mem_nil, or_false] at hn
  rcases hn with rfl | rfl | rfl | rfl | rfl <;> trivial

lemma checkCancelRequested_knows :
    ∀ next ∈ checkCancelRequested cfg s nowTs task, next.Knows cfg s := by
  intro next hn
  unfold checkCancelRequested at hn
  extract_lets execution stale age userStop delay at hn
  split at hn
  · cases hn
  · split at hn
    · cases hn
    · obtain rfl := mem_singleton.mp hn
      trivial

lemma finalizeCancelRequested_knows {status : TaskExecutionStatus} :
    ∀ next ∈ (finalizeCancelRequested now s task status message).2,
      next.Knows cfg (finalizeCancelRequested now s task status message).1 := by
  intro next hn
  rw [finalizeCancelRequested] at hn ⊢
  split at hn
  · next hreason =>
    rw [if_pos hreason]
    dsimp only at hn ⊢
    split at hn
    · next hf =>
      obtain ⟨entity, he, _⟩ := (Option.any_eq_true _ _).mp hf
      obtain ⟨r, hr, ht⟩ := finalizeReconciled_closed (ne_of_eq_of_ne he (Option.some_ne_none entity))
      have hc := not_openTask (s := { s with store := (finalizeReconciled now task.taskId
        task.terminationReason message s.store).2 }) hr ht
      simp only [mem_append, mem_cons, not_mem_nil, or_false, Option.mem_toList,
        Option.map_eq_some_iff] at hn
      rcases hn with ((rfl | ⟨w, _, rfl⟩) | rfl | rfl) | ⟨w, _, rfl⟩
      · trivial
      · trivial
      · exact ⟨hc, rfl⟩
      · exact ⟨hc, rfl⟩
      · trivial
    · cases hn
  · cases hn

variable {next : List Command}

lemma hardStop_knows (h : (hardStop now s taskId).2 = some next) :
    ∀ command ∈ next, command.Knows cfg (hardStop now s taskId).1 := by
  have hret : (requestStop now taskId (.known .nestedWaitCapacityLost) true s.store).1 = _ :=
    requestStop_returns
  intro command hc
  rw [hardStop] at h ⊢
  dsimp only at h ⊢
  split at h
  · cases h
  · next task ht =>
    obtain rfl := Option.some.inj h
    split at hc
    · next hcan =>
      obtain rfl := mem_singleton.mp hc
      obtain ⟨r, hr, he⟩ := Option.map_eq_some_iff.mp (hret.symm.trans ht)
      refine ⟨not_openTask hr ?_, rfl⟩
      have hst : r.status = .cancelled := (congrArg TaskExecution.status he).trans hcan.1
      simp [hst]
    · cases hc

theorem exec_knows {command : Command} (hk : command.Knows cfg s)
    (hs : ∀ nowTs, command = .rebalance nowTs →
      ∀ r ∈ s.reservations.rows, (s.store.task? r.parentTaskId).isSome)
    (h : (exec cfg now s command).2 = some next) :
    ∀ c ∈ next, c.Knows cfg (exec cfg now s command).1 := by
  intro c hc
  cases command with
  | reapDeadWorkers nowTs =>
    cases h
    cases hc
  | listActive nowTs =>
    cases h
    rcases mem_append.mp hc with hc | hc
    · obtain ⟨task, _, rfl⟩ := mem_map.mp hc
      exact hk
    · obtain rfl := mem_singleton.mp hc
      trivial
  | checkActive nowTs task =>
    cases h
    exact checkActive_knows hk c hc
  | finalizeLost task workerId =>
    cases h
    exact finalizeLost_knows hk c hc
  | listStale nowTs activeIds =>
    cases h
    exact listStale_knows c hc
  | forgetTelemetry taskId | markIdle workerId taskId =>
    cases h
    cases hc
  | release grounds command =>
    cases h
    obtain ⟨released, hr, rfl⟩ := mem_map.mp hc
    exact (Justified.next hk released hr).later (exec_later (.release grounds command))
  | listCancelRequested =>
    cases h
    obtain ⟨task, _, rfl⟩ := mem_map.mp hc
    trivial
  | checkCancelRequested nowTs task =>
    cases h
    exact checkCancelRequested_knows c hc
  | finalizeCancelRequested task status message =>
    cases h
    exact finalizeCancelRequested_knows c hc
  | listReservations =>
    cases h
    rcases mem_append.mp hc with hc | hc
    · obtain ⟨r, hr, rfl⟩ := mem_map.mp hc
      exact ⟨le_rfl, fun q hq he => eq_of_key parent_isKey hq hr he⟩
    · obtain rfl := mem_singleton.mp hc
      trivial
  | inspectWorker nowTs reservation =>
    cases h
    obtain rfl := mem_singleton.mp hc
    exact ⟨hk.2, fun hd => not_alive_of_le hk.1 hd⟩
  | inspectParent reservation alive =>
    cases h
    obtain rfl := mem_singleton.mp hc
    refine ⟨hk.1, fun hd => ?_, fun hd => ?_⟩
    · simp only [Bool.or_eq_true, Bool.not_eq_true', decide_eq_true_eq, or_assoc] at hd
      exact hd.imp hk.2 not_openTask_iff.mpr
    · simp only [Bool.or_eq_false_iff, decide_eq_false_iff_not] at hd
      exact Option.isSome_iff_ne_none.mpr hd.1.2
  | inspectChild reservation dead =>
    cases h
    split at hc
    · next hd =>
      obtain rfl := mem_singleton.mp hc
      simp only [Bool.or_eq_true, decide_eq_true_eq, or_assoc] at hd
      refine ⟨rfl, hk.1, ?_⟩
      rcases hd with hd | hd
      · exact (hk.2.1 hd).imp_right .inl
      · exact .inr (.inr (not_openTask_iff.mpr hd))
    · cases hc
  | rebalance nowTs =>
    cases h
    obtain ⟨r, hr, rfl⟩ := mem_map.mp hc
    refine hs nowTs rfl r ?_
    exact (s.reservations.rebalance_perm _).subset (mem_append_left _ hr)
  | hardStop taskId => exact hardStop_knows h c hc

end Dvt.Orchestrator
