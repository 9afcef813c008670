import Dvt.Tasks.Lifecycle

/-! One worker handling a claimed task while stop requests commit in between. -/

namespace Dvt.Tasks

open Library Table

/-- The task a worker has claimed. -/
structure Claim where
  taskId : String
  workerId : String

variable {c : Claim} {r : TaskRecord}

/-- `reason or "USER_STOP"`: the empty text is falsy too. -/
def reasonOrUserStop : Option StoredReason → StoredReason
  | none => .known .userStop
  | some (.known reason) => .known reason
  | some (.legacy text unknown) => if text = "" then .known .userStop else .legacy text unknown

def readAuthoritativeReason (s : Store) (taskId : String) : Option StoredReason :=
  match s.task? taskId with
  | none => some (.legacy "UNKNOWN" (by decide))
  | some task =>
    if task.status = .cancelRequested ∨ task.status = .cancelled then
      some (reasonOrUserStop task.terminationReason)
    else none

inductive PipelineOutcome
  | success
  | unsuccessful (errorMessage : Option String)
  | raised (text : String)
  deriving DecidableEq, Repr

inductive Phase
  | starting
  | preparing
  | rejected
  | processing (seen : Option StoredReason)
  | deciding (success : Bool) (errorMessage : Option String) (seen : Option StoredReason)
  | cancelling (reason : StoredReason)
  | finishing (success : Bool) (errorMessage : Option String)
  | late
  | lateCancelling (reason : StoredReason)
  | crashed (text : String)
  | crashCancelling (reason : StoredReason)
  | crashFailing (text : String)
  | returned
  deriving DecidableEq

structure Handling where
  store : Store
  phase : Phase

inductive HandlingEvent
  | stop (now : DateTime) (reason : TaskTerminationReason) (hard : Bool)
  | loadRuntime (failure : Option String)
  | markRunning (now : DateTime)
  | poll
  | finish (outcome : PipelineOutcome)
  | read
  | write (now : DateTime)

section

variable (c : Claim)

def finalizeTask (now : DateTime) (status : TaskExecutionStatus) (message : Option String)
    (reason : Option StoredReason) (s : Store) : Bool × Store :=
  match finalize now c.taskId c.workerId status message reason s with
  | .ok p => p
  | .error _ => (false, s)

def markSuccess (now : DateTime) (s : Store) : Bool × Store :=
  finalizeTask c now .success none none s

def markError (now : DateTime) (message : String) (s : Store) : Bool × Store :=
  finalizeTask c now .error (some message) none s

def markCancelled (now : DateTime) (reason : StoredReason) (s : Store) : Bool × Store :=
  finalizeTask c now .cancelled none (some reason) s

def unsuccessfulMessage : Option String → String
  | none => "Task processing finished unsuccessfully"
  | some text => if text = "" then "Task processing finished unsuccessfully" else text

def afterRead (read : Option StoredReason) : Phase → Phase
  | .rejected => read.elim .returned .cancelling
  | .deciding success errorMessage seen =>
    (seen.or read).elim (.finishing success errorMessage) .cancelling
  | .late => read.elim .returned .lateCancelling
  | .crashed text =>
    match read with
    | some reason =>
      if reason = .known .userStop ∨ reason = .known .userHardStop then .crashCancelling reason
      else .crashFailing text
    | none => .crashFailing text
  | phase => phase

def afterProcess (seen : Option StoredReason) : PipelineOutcome → Phase
  | .success => .deciding true none seen
  | .unsuccessful errorMessage => .deciding false errorMessage seen
  | .raised text => .crashed text

def write (now : DateTime) (s : Store) : Phase → Handling
  | .cancelling reason =>
    if terminalStatusForTerminationReason (some reason) = .error then
      ⟨(markError c now ("Task terminated: " ++ reason.text) s).2, .returned⟩
    else ⟨(markCancelled c now reason s).2, .returned⟩
  | .finishing true _ =>
    let (done, s') := markSuccess c now s
    ⟨s', if done then .returned else .late⟩
  | .finishing false errorMessage =>
    ⟨(markError c now (unsuccessfulMessage errorMessage) s).2, .returned⟩
  | .lateCancelling reason => ⟨(markCancelled c now reason s).2, .returned⟩
  | .crashCancelling reason => ⟨(markCancelled c now reason s).2, .returned⟩
  | .crashFailing text => ⟨(markError c now text s).2, .returned⟩
  | phase => ⟨s, phase⟩

def handle (σ : Handling) : HandlingEvent → Handling
  | .stop now reason hard => { σ with store := (requestStop now c.taskId (.known reason) hard σ.store).2 }
  | .loadRuntime failure =>
    if σ.phase = .starting then { σ with phase := failure.elim .preparing .crashed } else σ
  | .markRunning now =>
    if σ.phase = .preparing then
      let (running, s') := markRunning now c.taskId c.workerId σ.store
      ⟨s', if running then .processing none else .rejected⟩
    else σ
  | .poll =>
    if σ.phase = .processing none then
      { σ with phase := .processing (readAuthoritativeReason σ.store c.taskId) }
    else σ
  | .finish outcome =>
    match σ.phase with
    | .processing seen => { σ with phase := afterProcess seen outcome }
    | _ => σ
  | .read => { σ with phase := afterRead (readAuthoritativeReason σ.store c.taskId) σ.phase }
  | .write now => write c now σ.store σ.phase

end

section

variable {s : Store}

structure Owned (c : Claim) (r : TaskRecord) : Prop where
  worker : r.assignedWorkerId = some c.workerId
  live : r.status = .started ∨ r.status = .running ∨ r.status = .cancelRequested
  stopped : r.status = .cancelRequested ↔ r.terminationReason ≠ none
  known : ∀ reason, r.terminationReason = some reason → ∃ k, reason = .known k

lemma Owned.not_terminal (h : Owned c r) : r.status ∉ terminalStatuses := by
  rcases h.live with hl | hl | hl <;> simp [hl]

structure Observed (r : TaskRecord) (reason : StoredReason) : Prop where
  stopped : r.status = .cancelRequested
  known : ∃ k, reason = .known k
  rank : reasonRank (some reason) ≤ reasonRank r.terminationReason

lemma readAuthoritativeReason_owned (hr : s.task? c.taskId = some r) (h : Owned c r) :
    (r.status = .cancelRequested → ∃ reason, readAuthoritativeReason s c.taskId = some reason) ∧
      ∀ reason, readAuthoritativeReason s c.taskId = some reason → Observed r reason := by
  have hc : r.status ≠ .cancelled := by rcases h.live with hl | hl | hl <;> simp [hl]
  by_cases hs : r.status = .cancelRequested
  · obtain ⟨reason, hreason⟩ := Option.ne_none_iff_exists'.mp (h.stopped.mp hs)
    obtain ⟨k, rfl⟩ := h.known reason hreason
    have hread : readAuthoritativeReason s c.taskId = some (.known k) := by
      simp only [readAuthoritativeReason, hr, hs, true_or, if_true, hreason, reasonOrUserStop]
    refine ⟨fun _ => ⟨_, hread⟩, ?_⟩
    intro reason hsome
    cases hread.symm.trans hsome
    exact ⟨hs, ⟨k, rfl⟩, hreason ▸ le_rfl⟩
  · have hread : readAuthoritativeReason s c.taskId = none := by
      simp only [readAuthoritativeReason, hr, hs, hc, or_self, if_false]
    refine ⟨fun hstop => absurd hstop hs, ?_⟩
    intro reason hsome
    cases hread.symm.trans hsome

lemma requestStop_owned (hr : s.task? c.taskId = some r) (h : Owned c r) (now : DateTime)
    (reason : TaskTerminationReason) (hard : Bool) :
    (requestStop now c.taskId (.known reason) hard s).2.task? c.taskId = some (markCancelRequested now
        (chooseTerminationReason r.terminationReason (some (.known reason)) hard) r) := by
  simp only [requestStop, hr, if_neg h.not_terminal, if_neg (show ¬ (r.status = .pending ∨ r.status = .queued) by
    rcases h.live with hl | hl | hl <;> simp [hl])]
  exact Store.writeTask_self _ hr

lemma chooseTerminationReason_known {current : Option StoredReason}
    (h : ∀ x, current = some x → ∃ k, x = .known k) (reason : TaskTerminationReason) (hard : Bool) :
    ∃ k, chooseTerminationReason current (some (.known reason)) hard = some (.known k) := by
  rcases chooseTerminationReason_cases current (some (.known reason)) hard with ⟨he, hn⟩ | ⟨he, _⟩
  · obtain ⟨x, hx⟩ := Option.ne_none_iff_exists'.mp hn
    obtain ⟨k, rfl⟩ := h x hx
    exact ⟨k, he.trans hx⟩
  · obtain ⟨wanted, hw, _⟩ := normalize_known reason hard
    exact ⟨wanted, he.trans hw⟩

lemma Owned.stop (h : Owned c r) (now : DateTime) (reason : TaskTerminationReason)
    (hard : Bool) : Owned c (markCancelRequested now
      (chooseTerminationReason r.terminationReason (some (.known reason)) hard) r) := by
  obtain ⟨k, hk⟩ := chooseTerminationReason_known h.known reason hard
  refine ⟨h.worker, .inr (.inr rfl), ?_, ?_⟩
  · exact ⟨fun _ => by rw [hk]; exact Option.some_ne_none _, fun _ => rfl⟩
  · rintro x hx
    cases hk.symm.trans hx
    exact ⟨k, rfl⟩

variable {reason : StoredReason}

lemma Observed.stop (h : Observed r reason) (now : DateTime)
    (other : TaskTerminationReason) (hard : Bool) : Observed (markCancelRequested now
      (chooseTerminationReason r.terminationReason (some (.known other)) hard) r) reason :=
  ⟨rfl, h.known, h.rank.trans (chooseTerminationReason_rank _ _ _)⟩

lemma markRunning_owned (hr : s.task? c.taskId = some r) (h : Owned c r) (now : DateTime) :
    ((markRunning now c.taskId c.workerId s).1 = true ↔ r.status = .started) ∧
      (markRunning now c.taskId c.workerId s).2.task? c.taskId =
        some (if r.status = .started then setRunning now r else r) := by
  have hby : startedBy c.taskId c.workerId r = decide (r.status = .started) := by
    simp [startedBy, Store.task?_id hr, h.worker]
  constructor
  · refine (select_nonempty_iff taskId_isKey (k := c.taskId) fun q hq => ?_).trans ?_
    · exact (of_decide_eq_true hq).1
    · constructor
      · rintro ⟨q, hq, hst⟩
        obtain rfl : r = q := Option.some.inj (hr.symm.trans hq)
        exact (of_decide_eq_true hst).2.1
      · intro hst
        exact ⟨r, hr, by rw [hby]; exact decide_eq_true hst⟩
  · have hl : (markRunning now c.taskId c.workerId s).2.task? c.taskId = (s.task? c.taskId).map _ :=
      lookup_update s.tasks (startedBy c.taskId c.workerId) (setRunning now) (fun _ => rfl)
        (fun _ => rfl) c.taskId
    rw [hl, hr, Option.map_some, hby]
    simp only [decide_eq_true_eq]

variable {status : TaskExecutionStatus}

lemma finalizeTask_row (c : Claim) (now : DateTime)
    (message : Option String) (reason : Option StoredReason) (hst : status ∈ terminalStatuses)
    (hr : s.task? c.taskId = some r) :
    (finalizeTask c now status message reason s).1 = finalizeAllowed c.workerId status reason r ∧
      (finalizeTask c now status message reason s).2.task? c.taskId =
        some (if finalizeAllowed c.workerId status reason r then settle now status
          ((finalizeReason r.terminationReason reason).or r.terminationReason) message r else r) := by
  simp only [finalizeTask, finalize, if_neg (not_not.mpr hst), hr]
  cases ha : finalizeAllowed c.workerId status reason r with
  | true => exact ⟨rfl, Store.writeTask_self _ hr⟩
  | false => exact ⟨rfl, hr⟩

lemma finalizeReason_observed (h : Observed r reason) :
    finalizeReason r.terminationReason (some reason) = r.terminationReason := by
  obtain ⟨k, rfl⟩ := h.known
  exact chooseTerminationReason_eq_current h.rank

def Closed (c : Claim) (s : Store) : Prop :=
  ∃ r, s.task? c.taskId = some r ∧ r.status ∈ terminalStatuses

variable (h : Owned c r)

include h

lemma error_allowed_iff : finalizeAllowed c.workerId .error none r = true ↔
      r.terminationReason = none ∨
        terminalStatusForTerminationReason r.terminationReason = .error := by
  have hreason : finalizeReason r.terminationReason none = r.terminationReason := if_pos rfl
  rw [finalizeAllowed_iff]
  constructor
  · rintro ⟨_, _, _, _, hmap⟩
    by_cases hn : r.terminationReason = none
    · exact .inl hn
    · exact .inr (hmap hn (by simp)).symm
  · intro hor
    refine ⟨h.worker, h.not_terminal, by simp, fun _ => h.live, ?_⟩
    intro hn _
    exact (hor.resolve_left hn).symm

lemma cancelled_allowed_iff (ho : Observed r reason) :
    finalizeAllowed c.workerId .cancelled (some reason) r = true ↔
      terminalStatusForTerminationReason r.terminationReason = .cancelled := by
  rw [finalizeAllowed_iff, finalizeReason_observed ho]
  constructor
  · rintro ⟨_, _, _, _, hmap⟩
    exact (hmap (h.stopped.mp ho.stopped) (by simp)).symm
  · intro hc
    exact ⟨h.worker, h.not_terminal, by simp, fun _ => h.live, fun _ _ => hc.symm⟩

lemma success_allowed_iff :
    finalizeAllowed c.workerId .success none r = true ↔ r.status ≠ .cancelRequested := by
  rw [finalizeAllowed_iff]
  constructor
  · rintro ⟨_, _, hs, _⟩ hc
    simp [hc] at hs
  · intro hn
    refine ⟨h.worker, h.not_terminal, fun _ => ?_, by simp, by simp⟩
    rcases h.live with hl | hl | hl
    · exact .inl hl
    · exact .inr hl
    · exact absurd hl hn

end

section

variable {σ : Handling}

def Phase.Knows (r : TaskRecord) : Phase → Prop
  | .starting => r.status = .started ∨ r.status = .cancelRequested
  | .preparing => r.status = .started ∨ r.status = .cancelRequested
  | .rejected => r.status = .cancelRequested
  | .processing seen => ∀ reason, seen = some reason → Observed r reason
  | .deciding _ _ seen => ∀ reason, seen = some reason → Observed r reason
  | .cancelling reason => Observed r reason
  | .finishing _ _ => True
  | .late => r.status = .cancelRequested
  | .lateCancelling reason => Observed r reason
  | .crashed _ => True
  | .crashCancelling reason => Observed r reason
  | .crashFailing _ => True
  | .returned => False

structure Busy (c : Claim) (σ : Handling) (r : TaskRecord) : Prop where
  row : σ.store.task? c.taskId = some r
  owned : Owned c r
  knows : σ.phase.Knows r

def storedReason (c : Claim) (s : Store) : Option StoredReason :=
  (s.task? c.taskId).bind TaskRecord.terminationReason

/-- The terminal status about to be written is the one the stored reason calls for. A refused SUCCESS
is not final: the handler reads the reason again and cancels. -/
def writeAgrees (stored : Option StoredReason) : Phase → Prop
  | .cancelling reason => terminalStatusForTerminationReason stored =
      terminalStatusForTerminationReason (some reason)
  | .finishing false _ => stored = none ∨ terminalStatusForTerminationReason stored = .error
  | .lateCancelling _ => terminalStatusForTerminationReason stored = .cancelled
  | .crashCancelling _ => terminalStatusForTerminationReason stored = .cancelled
  | .crashFailing _ => stored = none ∨ terminalStatusForTerminationReason stored = .error
  | _ => True

def writesAgree (c : Claim) (σ : Handling) : HandlingEvent → Prop
  | .write _ => writeAgrees (storedReason c σ.store) σ.phase
  | _ => True

lemma Phase.Knows.stop {phase : Phase} (h : phase.Knows r) (now : DateTime)
    (reason : TaskTerminationReason) (hard : Bool) : phase.Knows (markCancelRequested now
      (chooseTerminationReason r.terminationReason (some (.known reason)) hard) r) := by
  cases phase with
  | starting | preparing => exact .inr rfl
  | rejected | late => exact rfl
  | processing seen | deciding success message seen =>
    exact fun x hx => (h x hx).stop now reason hard
  | cancelling x | lateCancelling x | crashCancelling x => exact Observed.stop h now reason hard
  | finishing success message | crashed text | crashFailing text => trivial
  | returned => exact h

variable (now : DateTime)

section

variable (h : Busy c σ r)

include h

lemma Busy.stop (reason : TaskTerminationReason) (hard : Bool) :
    ∃ r', Busy c (handle c σ (.stop now reason hard)) r' :=
  ⟨_, requestStop_owned h.row h.owned now reason hard, h.owned.stop now reason hard,
    h.knows.stop now reason hard⟩

lemma Busy.loadRuntime (failure : Option String) :
    Busy c (handle c σ (.loadRuntime failure)) r := by
  simp only [handle]
  split
  · next hp =>
    have hk := h.knows
    rw [hp] at hk
    refine ⟨h.row, h.owned, ?_⟩
    cases failure with
    | none => exact hk
    | some text => trivial
  · exact h

lemma Busy.markRunning : ∃ r', Busy c (handle c σ (.markRunning now)) r' := by
  simp only [handle]
  split
  · next hp =>
    have hk := h.knows
    rw [hp] at hk
    obtain ⟨htrue, hrow⟩ := markRunning_owned h.row h.owned now
    by_cases hst : r.status = .started
    · rw [if_pos hst] at hrow
      have hnone : r.terminationReason = none := by
        by_contra hn
        exact absurd (h.owned.stopped.mpr hn) (by simp [hst])
      refine ⟨_, hrow, ⟨h.owned.worker, .inr (.inl rfl), ?_, h.owned.known⟩, ?_⟩
      · simp [setRunning, hnone]
      · rw [htrue.mpr hst]
        rintro reason ⟨⟩
    · rw [if_neg hst] at hrow
      refine ⟨r, hrow, h.owned, ?_⟩
      rw [if_neg (fun ht => hst (htrue.mp ht))]
      exact hk.resolve_left hst
  · exact ⟨r, h⟩

lemma Busy.poll : Busy c (handle c σ .poll) r := by
  simp only [handle]
  split
  · exact ⟨h.row, h.owned, (readAuthoritativeReason_owned h.row h.owned).2⟩
  · exact h

lemma Busy.finish (outcome : PipelineOutcome) : Busy c (handle c σ (.finish outcome)) r := by
  have hk := h.knows
  simp only [handle]
  cases hp : σ.phase with
  | processing seen =>
    rw [hp] at hk
    refine ⟨h.row, h.owned, ?_⟩
    cases outcome with
    | success | unsuccessful message => exact hk
    | raised text => trivial
  | _ => exact h

lemma Busy.read : Busy c (handle c σ .read) r := by
  obtain ⟨hs, hobs⟩ := readAuthoritativeReason_owned h.row h.owned
  have hk := h.knows
  refine ⟨h.row, h.owned, ?_⟩
  simp only [handle]
  cases hp : σ.phase with
  | rejected | late =>
    rw [hp] at hk
    obtain ⟨reason, hr⟩ := hs hk
    rw [hr]
    exact hobs reason hr
  | deciding success message seen =>
    rw [hp] at hk
    cases seen with
    | some reason => exact hk reason rfl
    | none =>
      cases hr : readAuthoritativeReason σ.store c.taskId with
      | none => trivial
      | some reason => exact hobs reason hr
  | crashed text =>
    cases hr : readAuthoritativeReason σ.store c.taskId with
    | none => trivial
    | some reason =>
      simp only [afterRead]
      split
      · exact hobs reason hr
      · trivial
  | _ =>
    rw [hp] at hk
    exact hk

end

inductive Handled (c : Claim) (σ : Handling) (agreed : Prop) : Prop
  | busy {r : TaskRecord} : Busy c σ r → agreed → Handled c σ agreed
  | closed : σ.phase = .returned → Closed c σ.store → agreed → Handled c σ agreed
  | left {r : TaskRecord} : σ.phase = .returned → σ.store.task? c.taskId = some r →
      Owned c r → ¬ agreed → Handled c σ agreed

section

variable (h : Busy c σ r)

include h

lemma Busy.finalized {status : TaskExecutionStatus}
    (hst : status ∈ terminalStatuses) (now : DateTime) (message : Option String)
    (reason : Option StoredReason) {agreed : Prop}
    (hiff : finalizeAllowed c.workerId status reason r = true ↔ agreed) :
    Handled c
      ⟨(finalizeTask c now status message reason σ.store).2, .returned⟩ agreed := by
  have hrow := (finalizeTask_row c now message reason hst h.row).2
  by_cases ha : finalizeAllowed c.workerId status reason r = true
  · rw [if_pos ha] at hrow
    exact .closed rfl ⟨_, hrow, hst⟩ (hiff.mp ha)
  · rw [if_neg ha] at hrow
    exact .left rfl hrow h.owned fun hagr => ha (hiff.mpr hagr)

lemma Busy.write_cancelling {reason : StoredReason} (ho : Observed r reason) :
    Handled c (write c now σ.store (.cancelling reason))
      (terminalStatusForTerminationReason r.terminationReason =
        terminalStatusForTerminationReason (some reason)) := by
  simp only [write]
  rcases terminalStatus_mem (some reason) with hT | hT
  · rw [hT]
    refine h.finalized (by simp) now _ none ((error_allowed_iff h.owned).trans ?_)
    exact or_iff_right (h.owned.stopped.mp ho.stopped)
  · rw [hT]
    exact h.finalized (by simp) now none _ (cancelled_allowed_iff h.owned ho)

lemma Busy.write_finishing (errorMessage : Option String) :
    Handled c (write c now σ.store (.finishing true errorMessage))
      True := by
  have hs : TaskExecutionStatus.success ∈ terminalStatuses := by simp
  have hrow : (markSuccess c now σ.store).1 = _ ∧
      (markSuccess c now σ.store).2.task? c.taskId = _ :=
    finalizeTask_row c now none none hs h.row
  simp only [write]
  by_cases hc : r.status = .cancelRequested
  · have ha : ¬ finalizeAllowed c.workerId .success none r = true := fun ha =>
      (success_allowed_iff h.owned).mp ha hc
    rw [if_neg ha] at hrow
    refine .busy ⟨hrow.2, h.owned, ?_⟩ trivial
    rw [if_neg (hrow.1 ▸ ha)]
    exact hc
  · have ha := (success_allowed_iff h.owned).mpr hc
    rw [if_pos ha] at hrow
    exact .closed (if_pos (hrow.1.trans ha)) ⟨_, hrow.2, by simp⟩ trivial

lemma Busy.write : Handled c (handle c σ (.write now)) (writesAgree c σ (.write now)) := by
  have hk := h.knows
  have hs : storedReason c σ.store = r.terminationReason := by
    rw [storedReason, h.row, Option.bind_some]
  simp only [handle, writesAgree, hs]
  cases hp : σ.phase with
  | cancelling reason =>
    rw [hp] at hk
    exact h.write_cancelling now hk
  | finishing success message =>
    cases success with
    | true => exact h.write_finishing now message
    | false => exact h.finalized (by simp) now _ none (error_allowed_iff h.owned)
  | lateCancelling reason | crashCancelling reason =>
    rw [hp] at hk
    exact h.finalized (by simp) now none _ (cancelled_allowed_iff h.owned hk)
  | crashFailing text => exact h.finalized (by simp) now _ none (error_allowed_iff h.owned)
  | returned =>
    rw [hp] at hk
    exact hk.elim
  | _ =>
    refine .busy (r := r) ⟨h.row, h.owned, ?_⟩ trivial
    rw [hp] at hk
    exact hk

lemma Busy.handle (e : HandlingEvent) : Handled c (handle c σ e) (writesAgree c σ e) := by
  cases e with
  | stop now reason hard =>
    obtain ⟨r', h'⟩ := h.stop now reason hard
    exact .busy h' trivial
  | loadRuntime failure => exact .busy (h.loadRuntime failure) trivial
  | markRunning now =>
    obtain ⟨r', h'⟩ := h.markRunning now
    exact .busy h' trivial
  | poll => exact .busy h.poll trivial
  | finish outcome => exact .busy (h.finish outcome) trivial
  | read => exact .busy h.read trivial
  | write now => exact h.write now

end

lemma handle_returned (c : Claim) (hp : σ.phase = .returned) (e : HandlingEvent) :
    (handle c σ e).phase = .returned ∧ writesAgree c σ e ∧ ((handle c σ e).store = σ.store ∨
        ∃ now reason hard, e = .stop now reason hard) := by
  cases e with
  | stop now reason hard => exact ⟨hp, trivial, .inr ⟨now, reason, hard, rfl⟩⟩
  | _ => simp [Dvt.Tasks.handle, hp, writesAgree, writeAgrees, afterRead, Dvt.Tasks.write]

lemma Handled.step {agreed : Prop} (h : Handled c σ agreed) (e : HandlingEvent) :
    Handled c (handle c σ e) (agreed ∧ writesAgree c σ e) := by
  cases h with
  | busy hb ha =>
    rw [and_iff_right ha]
    exact hb.handle e
  | closed hp hc ha =>
    obtain ⟨hp', hw, hs⟩ := handle_returned c hp e
    refine .closed hp' ?_ ⟨ha, hw⟩
    obtain ⟨r, hr, ht⟩ := hc
    rcases hs with hs | ⟨now, reason, hard, rfl⟩
    · exact ⟨r, hs ▸ hr, ht⟩
    · refine ⟨r, ?_, ht⟩
      exact (hr ▸ requestStop_row σ.store c.taskId now c.taskId (.known reason) hard).terminal ht
  | left hp hr ho hn =>
    obtain ⟨hp', _, hs⟩ := handle_returned c hp e
    have hn' : ¬ (agreed ∧ writesAgree c σ e) := fun h => hn h.1
    rcases hs with hs | ⟨now, reason, hard, rfl⟩
    · exact .left hp' (hs ▸ hr) ho hn'
    · exact .left hp' (requestStop_owned hr ho now reason hard) (ho.stop now reason hard) hn'

lemma run_handled (h : Handled c σ True) (xs : List HandlingEvent) : Handled c (run (handle c) σ xs)
      (Along (handle c) (writesAgree c) σ xs) := by
  induction xs using List.reverseRecOn with
  | nil => exact h
  | append_singleton xs e ih =>
    have hstep := ih.step e
    rw [run_snoc]
    rwa [along_append, Along, Along, and_true]

def claimedStore (s : Store) (ts : List Transaction) (claimedAt : DateTime) (c : Claim) :
    Store := (claim claimedAt c.taskId c.workerId (run Transaction.apply s ts)).2

lemma claimed_busy {s : Store} (hs : s.task? c.taskId = none) (ts : List Transaction)
    (claimedAt : DateTime)
    (hcla : (claim claimedAt c.taskId c.workerId (run Transaction.apply s ts)).1 = true) :
    ∃ r, Busy c ⟨claimedStore s ts claimedAt c, .starting⟩ r := by
  obtain ⟨r, hr, hst⟩ := claim_true_iff.mp hcla
  have hn : r.terminationReason = none := by
    refine run_untouched hs ts r hr ?_
    rcases hst with hst | hst
    · exact .inl (.inr hst)
    · exact .inr hst
  have hc : claimable c.taskId r = true := claimable_iff.mpr ⟨Store.task?_id hr, hst⟩
  have hl : (claimedStore s ts claimedAt c).task? c.taskId =
      ((run Transaction.apply s ts).task? c.taskId).map _ :=
    lookup_update _ (claimable c.taskId) (markStarted claimedAt c.workerId) (fun _ => rfl)
      (fun _ => rfl) c.taskId
  rw [hr, Option.map_some, if_pos hc] at hl
  refine ⟨_, hl, ⟨rfl, .inl rfl, ?_, ?_⟩, .inl rfl⟩
  · simp [markStarted, hn]
  · intro reason hreason
    cases hn.symm.trans hreason

theorem handler_leaves_terminal_iff (s : Store) (c : Claim)
    (hs : s.task? c.taskId = none) (ts : List Transaction) (claimedAt : DateTime)
    (hclaim : (claim claimedAt c.taskId c.workerId (run Transaction.apply s ts)).1 = true)
    (xs : List HandlingEvent)
    (hret : (run (handle c)
      ⟨claimedStore s ts claimedAt c, .starting⟩ xs).phase = .returned) :
    Closed c (run (handle c)
        ⟨claimedStore s ts claimedAt c, .starting⟩ xs).store ↔
      Along (handle c) (writesAgree c)
        ⟨claimedStore s ts claimedAt c, .starting⟩ xs := by
  obtain ⟨r, hb⟩ := claimed_busy hs ts claimedAt hclaim
  have hrun := run_handled (.busy hb trivial) xs
  cases hrun with
  | busy hb _ =>
    have hk := hb.knows
    rw [hret] at hk
    exact hk.elim
  | closed _ hc ha => exact iff_of_true hc ha
  | left _ hr ho hn =>
    refine iff_of_false ?_ hn
    rintro ⟨q, hq, hterm⟩
    cases hr.symm.trans hq
    exact ho.not_terminal hterm

def sampleClaim : Claim := ⟨"task", "worker"⟩

def sampleClaimed : Handling where
  store := claimedStore .empty
    [.enqueueWithDispatch (sampleJob "dispatch" "task" .ui)] sampleTime sampleClaim
  phase := .starting

def sampleLateStop (reason : TaskTerminationReason) : List HandlingEvent :=
  [.loadRuntime none, .markRunning sampleTime, .finish .success, .read,
    .stop sampleTime reason true, .write sampleTime, .read, .write sampleTime]

theorem handler_leaves_terminal_userStop :
    (run (handle sampleClaim) sampleClaimed (sampleLateStop .userStop)).phase = .returned ∧
      Closed sampleClaim (run (handle sampleClaim) sampleClaimed (sampleLateStop .userStop)).store ∧
      Along (handle sampleClaim) (writesAgree sampleClaim) sampleClaimed
        (sampleLateStop .userStop) := by
  have hret : (run (handle sampleClaim) sampleClaimed (sampleLateStop .userStop)).phase =
      .returned := by decide
  have hst : ((run (handle sampleClaim) sampleClaimed (sampleLateStop .userStop)).store.task?
      "task").map TaskRecord.status = some .cancelled := by decide
  obtain ⟨r, hr, hs⟩ := Option.map_eq_some_iff.mp hst
  have hclosed : Closed sampleClaim
      (run (handle sampleClaim) sampleClaimed (sampleLateStop .userStop)).store :=
    ⟨r, hr, by simp [hs]⟩
  exact ⟨hret, hclosed, (handler_leaves_terminal_iff .empty sampleClaim rfl _ sampleTime
    (by decide) (sampleLateStop .userStop) hret).mp hclosed⟩

theorem late_oomGuard_left_open :
    (run (handle sampleClaim) sampleClaimed (sampleLateStop .oomGuard)).phase = .returned ∧
      ((run (handle sampleClaim) sampleClaimed (sampleLateStop .oomGuard)).store.task?
        "task").map (fun r => (r.status, r.terminationReason)) =
          some (.cancelRequested, some (.known .oomGuard)) := by
  decide

end

end Dvt.Tasks
