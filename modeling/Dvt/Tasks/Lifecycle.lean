import Dvt.Library.Runs
import Dvt.Tasks.RowSteps

/-! The lifecycle a task follows under every interleaving of transactions. -/

namespace Dvt.Tasks

open Library

variable {r : TaskRecord} {id : String} {t : Transaction} {o : Option TaskRecord} {s : Store}
variable {w : String} {status : TaskExecutionStatus} {now : DateTime} {job : Enqueue}
  {C : TaskExecutionStatus → Prop}

inductive Follows : TaskExecutionStatus → TaskExecutionStatus → Prop
  | queue : Follows .pending .queued
  | reject : Follows .pending .error
  | withdraw {a} : a = .pending ∨ a = .queued → Follows a .cancelled
  | claim {a} : a = .queued ∨ a = .assigned → Follows a .started
  | run : Follows .started .running
  | finish {a} : a = .started ∨ a = .running → Follows a .success
  | close {a b} : a = .started ∨ a = .running ∨ a = .cancelRequested →
      b = .error ∨ b = .cancelled → Follows a b
  | stop {a} : a = .assigned ∨ a = .started ∨ a = .running → Follows a .cancelRequested

variable {reason : Option StoredReason}

lemma finalizeAllowed_iff : finalizeAllowed w status reason r = true ↔
      r.assignedWorkerId = some w ∧ r.status ∉ terminalStatuses ∧
      (status = .success → r.status = .started ∨ r.status = .running) ∧
      (status ≠ .success →
        r.status = .started ∨ r.status = .running ∨ r.status = .cancelRequested) ∧
      (finalizeReason r.terminationReason reason ≠ none → status ≠ .success →
        status = terminalStatusForTerminationReason
          (finalizeReason r.terminationReason reason)) := by
  rw [finalizeAllowed, decide_eq_true_iff]

variable {r' : TaskRecord}

lemma Admits.follows (h : Admits job (some r) r') : r.status = .pending ∨ r.status = .queued := by
  cases h with
  | pending h => exact .inl h
  | queued h => exact .inr h

theorem RowStep.follows (h : RowStep id t (some r) o) :
    ∃ r', o = some r' ∧ (r' = r ∨ r'.status = r.status ∧ r.status ∉ terminalStatuses ∨
      Follows r.status r'.status) := by
  cases h with
  | keep => exact ⟨r, rfl, .inl rfl⟩
  | admitted _ ha =>
    cases ha with
    | pending hp => exact ⟨_, rfl, .inr (.inr (hp ▸ .queue))⟩
    | queued _ => exact ⟨_, rfl, .inl rfl⟩
  | admittedStale _ ha => exact ⟨_, rfl, .inr (.inr (.withdraw ha.follows))⟩
  | superseded hr => exact ⟨_, rfl, .inr (.inr (.withdraw hr))⟩
  | claimed hr => exact ⟨_, rfl, .inr (.inr (.claim hr))⟩
  | running hr _ => exact ⟨_, rfl, .inr (.inr (hr ▸ .run))⟩
  | @finalized _ _ status _ _ _ hst ha =>
    refine ⟨_, rfl, .inr (.inr ?_)⟩
    obtain ⟨_, _, hsuc, ho, _⟩ := finalizeAllowed_iff.mp ha
    rcases mem_terminalStatuses.mp hst with rfl | hb
    · exact .finish (hsuc rfl)
    · refine .close (ho ?_) hb
      rintro rfl
      simp at hb
  | reconciled ha =>
    refine ⟨_, rfl, .inr (.inr (.close ?_ (terminalStatus_mem _)))⟩
    obtain ⟨_, h | ⟨h | h, _⟩⟩ := of_decide_eq_true ha
    · exact .inr (.inr h)
    · exact .inl h
    · exact .inr (.inl h)
  | failed hr => exact ⟨_, rfl, .inr (.inr (hr ▸ .reject))⟩
  | cancelledEarly hr => exact ⟨_, rfl, .inr (.inr (.withdraw hr))⟩
  | cancelRequested ht hr =>
    refine ⟨_, rfl, .inr ?_⟩
    cases hs : r.status with
    | cancelRequested => exact .inl ⟨rfl, by simp⟩
    | assigned => exact .inr (.stop (.inl rfl))
    | started => exact .inr (.stop (.inr (.inl rfl)))
    | running => exact .inr (.stop (.inr (.inr rfl)))
    | _ => simp [hs] at ht hr

lemma Follows.not_terminal {a b : TaskExecutionStatus} (h : Follows a b) : a ∉ terminalStatuses := by
  cases h with
  | queue | reject => simp
  | withdraw h | claim h => rcases h with rfl | rfl <;> simp
  | run => simp
  | finish h => rcases h with rfl | rfl <;> simp
  | close h _ | stop h => rcases h with rfl | rfl | rfl <;> simp

lemma RowStep.terminal (h : RowStep id t (some r) o) (hr : r.status ∈ terminalStatuses) :
    o = some r := by
  obtain ⟨r', rfl, rfl | ⟨_, hn⟩ | hf⟩ := h.follows
  · rfl
  · exact absurd hr hn
  · exact absurd hr hf.not_terminal

lemma RowStep.closed (hC : ∀ a b, C a → Follows a b → C b)
    (h : RowStep id t (some r) o) (hr : C r.status) : ∃ r', o = some r' ∧ C r'.status := by
  obtain ⟨r', rfl, rfl | ⟨he, _⟩ | hf⟩ := h.follows
  · exact ⟨r', rfl, hr⟩
  · exact ⟨r', rfl, he ▸ hr⟩
  · exact ⟨r', rfl, hC _ _ hr hf⟩

lemma RowStep.assigned_worker (h : RowStep id t o (some r')) (hw : r'.assignedWorkerId = some w) :
    (∃ r, o = some r ∧ r.assignedWorkerId = some w) ∨
      ∃ now r, t = .claim now id w ∧ o = some r ∧ (r.status = .queued ∨ r.status = .assigned) := by
  cases h with
  | keep => exact .inl ⟨_, rfl, hw⟩
  | created _ => cases hw
  | admitted _ ha | admittedStale _ ha =>
    cases ha with
    | new => cases hw
    | pending _ => exact .inl ⟨_, rfl, hw⟩
    | queued _ => exact .inl ⟨_, rfl, hw⟩
  | claimed hr =>
    cases hw
    exact .inr ⟨_, _, rfl, rfl, hr⟩
  | superseded _ | running _ _ | finalized _ _ | reconciled _ | failed _ | cancelledEarly _
  | cancelRequested _ _ => exact .inl ⟨_, rfl, hw⟩

lemma RowStep.success (h : RowStep id t o (some r')) (hs : r'.status = .success) :
    o = some r' ∨ ∃ now w message reason r, t = .finalize now id w .success message reason ∧
      o = some r ∧ finalizeAllowed w .success reason r = true := by
  cases h with
  | keep => exact .inl rfl
  | admitted _ ha => simp [ha.status] at hs
  | @finalized now w status message reason r _ ha =>
    have he : status = .success := hs
    subst he
    exact .inr ⟨now, w, message, reason, r, rfl, rfl, ha⟩
  | reconciled _ =>
    rcases terminalStatus_mem _ with h | h
    · exact absurd (h.symm.trans hs) (by simp)
    · exact absurd (h.symm.trans hs) (by simp)
  | _ => cases hs

lemma run_terminal (xs : List Transaction) (h : s.task? id = some r)
    (hr : r.status ∈ terminalStatuses) : (run Transaction.apply s xs).task? id = some r := by
  refine run_invariant (P := fun s : Store => s.task? id = some r) xs ?_ h
  intro s t hs
  exact (hs ▸ apply_row s id t).terminal hr

lemma run_closed (hC : ∀ a b, C a → Follows a b → C b)
    (xs : List Transaction) (h : ∃ r, s.task? id = some r ∧ C r.status) :
    ∃ r, (run Transaction.apply s xs).task? id = some r ∧ C r.status := by
  refine run_invariant (P := fun s : Store => ∃ r, s.task? id = some r ∧ C r.status) xs ?_ h
  rintro s t ⟨r, hs, hr⟩
  exact (hs ▸ apply_row s id t).closed hC hr

def Withdrawn (status : TaskExecutionStatus) : Prop :=
  status = .cancelRequested ∨ status = .error ∨ status = .cancelled

lemma withdrawn_follows (a b : TaskExecutionStatus) (ha : Withdrawn a) (h : Follows a b) :
    Withdrawn b := by
  cases h with
  | close _ hb => exact .inr hb
  | withdraw _ => exact .inr (.inr rfl)
  | reject => exact .inr (.inl rfl)
  | stop _ => exact .inl rfl
  | queue | run => simp [Withdrawn] at ha
  | claim h | finish h => rcases h with rfl | rfl <;> simp [Withdrawn] at ha

lemma claimable_iff {taskId : String} :
    claimable taskId r = true ↔ r.taskId = taskId ∧ (r.status = .queued ∨ r.status = .assigned) := by
  rw [claimable, decide_eq_true_iff, mem_claimableStatuses]

lemma claim_true_iff : (claim now id w s).1 = true ↔
      ∃ r, s.task? id = some r ∧ (r.status = .queued ∨ r.status = .assigned) := by
  refine (Table.select_nonempty_iff taskId_isKey fun r h => (claimable_iff.mp h).1).trans ?_
  constructor
  · rintro ⟨r, hr, hc⟩
    exact ⟨r, hr, (claimable_iff.mp hc).2⟩
  · rintro ⟨r, hr, hst⟩
    exact ⟨r, hr, claimable_iff.mpr ⟨Store.task?_id hr, hst⟩⟩

lemma claimed_before (hs : s.task? id = none) (xs : List Transaction)
    (h : (run Transaction.apply s xs).task? id = some r) (hw : r.assignedWorkerId = some w) :
    ∃ pre now post, xs = pre ++ .claim now id w :: post ∧
      (claim now id w (run Transaction.apply s pre)).1 = true := by
  have h₀ : ¬ ∃ r, s.task? id = some r ∧ r.assignedWorkerId = some w := by simp [hs]
  obtain ⟨pre, t, post, rfl, hn, r', hr', hw'⟩ :=
    exists_switch (P := fun s : Store => ∃ r, s.task? id = some r ∧ r.assignedWorkerId = some w) xs h₀
      ⟨r, h, hw⟩
  have hrow := apply_row (run Transaction.apply s pre) id t
  rw [hr'] at hrow
  rcases hrow.assigned_worker hw' with hold | ⟨now, q, rfl, hq, hst⟩
  · exact absurd hold hn
  · exact ⟨pre, now, post, rfl, claim_true_iff.mpr ⟨q, hq, hst⟩⟩

lemma finalized_success (hs : s.task? id = none) (xs : List Transaction)
    (h : (run Transaction.apply s xs).task? id = some r) (hr : r.status = .success) :
    ∃ pre now w message reason post r', xs = pre ++ .finalize now id w .success message reason :: post ∧
      (run Transaction.apply s pre).task? id = some r' ∧
      finalizeAllowed w .success reason r' = true := by
  have h₀ : ¬ ∃ r, s.task? id = some r ∧ r.status = .success := by simp [hs]
  obtain ⟨pre, t, post, rfl, hn, r', hr', hst⟩ :=
    exists_switch (P := fun s : Store => ∃ r, s.task? id = some r ∧ r.status = .success) xs h₀ ⟨r, h, hr⟩
  have hrow := apply_row (run Transaction.apply s pre) id t
  rw [hr'] at hrow
  rcases hrow.success hst with hold | ⟨now, w, message, reason, q, rfl, hq, ha⟩
  · exact absurd ⟨r', hold, hst⟩ hn
  · exact ⟨pre, now, w, message, reason, post, q, rfl, hq, ha⟩

theorem terminal_absorbs (s : Store) (id : String) (xs ys : List Transaction) :
    (∀ r, (run Transaction.apply s xs).task? id = some r → r.status ∈ terminalStatuses →
      (run Transaction.apply s (xs ++ ys)).task? id = some r) ∧
    (s.task? id = none → ∀ r, (run Transaction.apply s xs).task? id = some r → r.status = .success →
        (∃ pre now w message reason post,
          xs = pre ++ .finalize now id w .success message reason :: post ∧
          (∃ s', finalize now id w .success message reason (run Transaction.apply s pre) =
            .ok (true, s')) ∧
          ∃ pre' now' post', pre = pre' ++ .claim now' id w :: post' ∧
            (claim now' id w (run Transaction.apply s pre')).1 = true) ∧
        ∀ pre, pre <+: xs → ∀ q, (run Transaction.apply s pre).task? id = some q →
          q.status ≠ .cancelRequested) := by
  refine ⟨?_, ?_⟩
  · intro r h hr
    rw [run_append]
    exact run_terminal ys h hr
  · intro hs r h hr
    refine ⟨?_, ?_⟩
    · obtain ⟨pre, now, w, message, reason, post, r', rfl, hr', ha⟩ := finalized_success hs xs h hr
      obtain ⟨hw, _⟩ := finalizeAllowed_iff.mp ha
      exact ⟨pre, now, w, message, reason, post, rfl,
        ⟨_, by rw [finalize, if_neg (not_not.mpr (by simp)), hr']; exact if_pos ha⟩,
        claimed_before hs pre hr' hw⟩
    · rintro pre ⟨post, rfl⟩ q hq hc
      rw [run_append] at h
      obtain ⟨r', hr', hwd⟩ := run_closed withdrawn_follows post ⟨q, hq, .inl hc⟩
      obtain rfl : r' = r := Option.some.inj (hr'.symm.trans h)
      simp [Withdrawn, hr] at hwd

def sampleExecution (taskId : String) (source : TaskSource) : TaskExecution where
  taskId := taskId
  userId := "user"
  organizationId := "organization"
  projectId := "project"
  mode := .full
  source := source
  status := .queued
  queuedAt := sampleTime

def sampleJob (dispatchId taskId : String) (source : TaskSource) : Enqueue :=
  ⟨sampleExecution taskId source, sampleTime, dispatchId, ⟨taskId, ""⟩⟩

def sampleSuccess : List Transaction :=
  [.createPending sampleTime (sampleExecution "task" .ui),
    .enqueueWithDispatch (sampleJob "dispatch" "task" .ui), .claim sampleTime "task" "worker",
    .markRunning sampleTime "task" "worker", .finalize sampleTime "task" "worker" .success none none]

theorem terminal_absorbs_sampleSuccess :
    (∃ r, (run Transaction.apply Store.empty sampleSuccess).task? "task" = some r ∧
      r.status = .success ∧
      (run Transaction.apply Store.empty
        (sampleSuccess ++ [.requestStop sampleTime "task" (.known .oomGuard) true])).task? "task" =
          some r) ∧
    ∃ pre now w message reason post,
      sampleSuccess = pre ++ .finalize now "task" w .success message reason :: post := by
  have h := terminal_absorbs Store.empty "task" sampleSuccess
    [.requestStop sampleTime "task" (.known .oomGuard) true]
  have hst : ((run Transaction.apply Store.empty sampleSuccess).task? "task").map TaskRecord.status =
      some .success := by decide
  obtain ⟨r, hr, hs⟩ := Option.map_eq_some_iff.mp hst
  obtain ⟨pre, now, w, message, reason, post, he, _⟩ := (h.2 rfl r hr hs).1
  exact ⟨⟨r, hr, hs, h.1 r hr (by simp [hs])⟩, pre, now, w, message, reason, post, he⟩

/-! Stored reason against stored status. -/

variable {o' : Option TaskRecord}

def storedRank (o : Option TaskRecord) : WithBot ℕ :=
  reasonRank (o.bind TaskRecord.terminationReason)

def Agrees (o : Option TaskRecord) : Prop :=
  ∀ r reason, o = some r → r.status = .error ∨ r.status = .cancelled →
    r.terminationReason = some (.known reason) →
    r.status = terminalStatusForTerminationReason (some (.known reason))

def Untouched (o : Option TaskRecord) : Prop :=
  ∀ r, o = some r → (r.status = .pending ∨ r.status = .queued) ∨ r.status = .assigned →
    r.terminationReason = none

/-- What the use cases pass: a stop carries a reason of the enumeration, a rejected pending execution
none or the lost nested-wait capacity. -/
def Transaction.issued : Transaction → Prop
  | .requestStop _ _ reason _ => ∃ r, reason = .known r
  | .failPending _ _ reason _ => reason = none ∨ reason = some (.known .nestedWaitCapacityLost)
  | _ => True

def benignStop (id : String) (s : Store) (t : Transaction) : Prop :=
  ∀ now reason hard r, t = .requestStop now id (.known reason) hard → s.task? id = some r →
    r.status = .pending ∨ r.status = .queued → reason ∉ failureTerminationReasons

lemma Admits.untouched (ha : Admits job o r) (h : Untouched o) :
    o.bind TaskRecord.terminationReason = none ∧ r.terminationReason = none := by
  cases ha with
  | new => exact ⟨rfl, rfl⟩
  | @pending q hp =>
    have hq : q.terminationReason = none := h q rfl (.inl (.inl hp))
    exact ⟨hq, hq⟩
  | queued hq =>
    have hr : r.terminationReason = none := h r rfl (.inl (.inr hq))
    exact ⟨hr, hr⟩

lemma RowStep.untouched (hstep : RowStep id t o o') (h : Untouched o) : Untouched o' := by
  intro r' hr' hst
  cases hstep with
  | keep => exact h r' hr' hst
  | created _ =>
    cases hr'
    rfl
  | admitted _ ha =>
    cases hr'
    exact (ha.untouched h).2
  | finalized ht _ =>
    cases hr'
    rcases mem_terminalStatuses.mp ht with rfl | rfl | rfl <;> simp at hst
  | @reconciled _ reason _ r _ =>
    cases hr'
    rcases terminalStatus_mem (chooseTerminationReason r.terminationReason reason false) with he | he
    · simp [he] at hst
    · simp [he] at hst
  | _ =>
    cases hr'
    simp at hst

lemma finalizeReason_or (current requested : Option StoredReason) :
    (finalizeReason current requested).or current = finalizeReason current requested := by
  rw [finalizeReason]
  split
  · cases current <;> rfl
  · next hr =>
    obtain ⟨q, rfl⟩ := Option.ne_none_iff_exists'.mp hr
    rcases chooseTerminationReason_cases current (some q) false with ⟨h, hn⟩ | ⟨h, _⟩
    · obtain ⟨c, rfl⟩ := Option.ne_none_iff_exists'.mp hn
      rw [h]
      rfl
    · rw [h]
      simp [normalizeTerminationRequest]

lemma finalizeReason_rank (current requested : Option StoredReason) :
    reasonRank current ≤ reasonRank (finalizeReason current requested) := by
  rw [finalizeReason]
  split
  · exact le_rfl
  · exact chooseTerminationReason_rank current requested false

lemma RowStep.rank (hstep : RowStep id t o o') (h : Untouched o) :
    storedRank o ≤ storedRank o' := by
  have early : ∀ r, o = some r → r.status = .pending ∨ r.status = .queued → storedRank o = ⊥ := by
    rintro r rfl hr
    simp [storedRank, h r rfl (.inl hr)]
  cases hstep with
  | keep => exact le_rfl
  | created _ => exact bot_le
  | admitted _ ha | admittedStale _ ha =>
    rw [storedRank, (ha.untouched h).1]
    exact bot_le
  | superseded hr => exact (early _ rfl hr).trans_le bot_le
  | claimed _ | running _ _ => exact le_rfl
  | finalized _ _ =>
    simp only [finalizeReason_or]
    exact finalizeReason_rank _ _
  | reconciled _ => exact chooseTerminationReason_rank _ _ false
  | failed hr => exact (early _ rfl (.inl hr)).trans_le bot_le
  | cancelledEarly _ | cancelRequested _ _ => exact chooseTerminationReason_rank _ _ _

lemma terminalStatus_early (reason : TaskTerminationReason) (hard : Bool) :
    ∃ wanted, chooseTerminationReason none (some (.known reason)) hard = some (.known wanted) ∧
      (terminalStatusForTerminationReason (some (.known wanted)) = .cancelled ↔
        reason ∉ failureTerminationReasons) := by
  obtain ⟨wanted, hw, hiff⟩ := normalize_known reason hard
  refine ⟨wanted, by rw [chooseTerminationReason_none, hw], ?_⟩
  rw [← hiff, terminalStatusForTerminationReason]
  split
  · next h => simp [h]
  · next h => simp [h]

lemma RowStep.agrees (hstep : RowStep id t o o') (hu : Untouched o) (h : Agrees o) (ht : t.issued)
    (hb : ∀ now reason hard r, t = .requestStop now id (.known reason) hard → o = some r →
      r.status = .pending ∨ r.status = .queued → reason ∉ failureTerminationReasons) :
    Agrees o' := by
  intro r' reason' hr' hst hreason
  cases hstep with
  | keep => exact h r' reason' hr' hst hreason
  | admitted _ ha =>
    cases hr'
    simp [ha.status] at hst
  | admittedStale _ _ | superseded _ =>
    cases hr'
    cases hreason
    rfl
  | finalized _ ha =>
    cases hr'
    simp only [settle_terminationReason, finalizeReason_or] at hreason hst ⊢
    obtain ⟨_, _, _, _, hmap⟩ := finalizeAllowed_iff.mp ha
    rw [hreason] at hmap
    refine hmap (by simp) ?_
    rintro rfl
    simp at hst
  | reconciled _ =>
    cases hr'
    simp only [settle_terminationReason, settle_status] at hreason ⊢
    rw [hreason]
  | @failed _ reason _ r hr =>
    cases hr'
    simp only [hu r rfl (.inl (.inl hr)), Option.or_none] at hreason ⊢
    subst hreason
    rcases ht with hn | hn
    · cases hn
    · cases hn
      rfl
  | @cancelledEarly _ reason hard r hr =>
    cases hr'
    obtain ⟨q, rfl⟩ := ht
    simp only [hu r rfl (.inl hr)] at hreason ⊢
    obtain ⟨wanted, hw, hiff⟩ := terminalStatus_early q hard
    rw [hw] at hreason
    cases hreason
    exact (hiff.mpr (hb _ q hard r rfl rfl hr)).symm
  | _ =>
    cases hr'
    simp at hst

lemma requestStop_early (now : DateTime) (reason : StoredReason)
    (hard : Bool) (h : s.task? id = some r) (hr : r.status = .pending ∨ r.status = .queued) :
    ((Transaction.requestStop now id reason hard).apply s).task? id =
      some (cancelEarly now (chooseTerminationReason r.terminationReason (some reason) hard) r) := by
  have hn : r.status ∉ terminalStatuses := by rcases hr with hr | hr <;> simp [hr]
  simp only [Transaction.apply, requestStop, h, if_neg hn, if_pos hr]
  exact Store.writeTask_self (f := cancelEarly now _) (fun _ => rfl) h

lemma run_untouched (hs : s.task? id = none) (xs : List Transaction) :
    Untouched ((run Transaction.apply s xs).task? id) := by
  refine run_invariant (P := fun s : Store => Untouched (s.task? id)) xs ?_ ?_
  · intro s t h
    exact (apply_row s id t).untouched h
  · rw [hs]
    rintro r ⟨⟩

lemma run_rank (hs : s.task? id = none) (xs ys : List Transaction) :
    storedRank ((run Transaction.apply s xs).task? id) ≤
      storedRank ((run Transaction.apply s (xs ++ ys)).task? id) := by
  rw [run_append]
  refine (along_true _ ys).monotone (P := fun s : Store => Untouched (s.task? id))
    (fun s => storedRank (s.task? id)) ?_ ?_ (run_untouched hs xs)
  · intro s t _ h
    exact (apply_row s id t).untouched h
  · intro s t _ h
    exact (apply_row s id t).rank h

lemma run_agrees (hs : s.task? id = none) {xs : List Transaction}
    (hx : ∀ t ∈ xs, t.issued) (hb : Along Transaction.apply (benignStop id) s xs) :
    Agrees ((run Transaction.apply s xs).task? id) := by
  have hinv := (hb.and_forall hx).invariant
    (P := fun s : Store => Untouched (s.task? id) ∧ Agrees (s.task? id)) ?_ ?_
  · exact hinv.2
  · rintro s t ⟨hb, ht⟩ ⟨hu, ha⟩
    have hrow := apply_row s id t
    exact ⟨hrow.untouched hu, hrow.agrees hu ha ht hb⟩
  · rw [hs]
    constructor
    · rintro r ⟨⟩
    · rintro r reason ⟨⟩

lemma benignStop_of_agrees (hu : Untouched (s.task? id))
    (h : Agrees ((t.apply s).task? id)) : benignStop id s t := by
  rintro now reason hard r rfl hr hst hf
  obtain ⟨wanted, hw, hiff⟩ := terminalStatus_early reason hard
  have hrow := requestStop_early now (.known reason) hard hr hst
  rw [hu r hr (.inl hst), hw] at hrow
  exact hiff.mp (h _ wanted hrow (.inr rfl) rfl).symm hf

theorem reason_status_agree_iff (s : Store) (id : String) (hs : s.task? id = none)
    (xs : List Transaction) (hx : ∀ t ∈ xs, t.issued) :
    (∀ pre mid, pre ++ mid <+: xs → storedRank ((run Transaction.apply s pre).task? id) ≤
        storedRank ((run Transaction.apply s (pre ++ mid)).task? id)) ∧
    ((∀ pre, pre <+: xs → Agrees ((run Transaction.apply s pre).task? id)) ↔
      Along Transaction.apply (benignStop id) s xs) := by
  refine ⟨fun pre mid _ => run_rank hs pre mid, ?_, ?_⟩
  · intro h
    rw [along_iff]
    intro pre t hp
    have hagree := h _ hp
    rw [run_snoc] at hagree
    exact benignStop_of_agrees (run_untouched hs pre) hagree
  · intro h pre hp
    exact run_agrees hs (fun t ht => hx t (hp.subset ht)) (h.of_isPrefix hp)

def sampleEarlyStop (reason : TaskTerminationReason) : List Transaction :=
  [.enqueueWithDispatch (sampleJob "dispatch" "task" .ui),
    .requestStop sampleTime "task" (.known reason) true]

theorem reason_status_agree_userStop :
    Along Transaction.apply (benignStop "task") Store.empty (sampleEarlyStop .userStop) ∧
      ∀ pre, pre <+: sampleEarlyStop .userStop →
        Agrees ((run Transaction.apply Store.empty pre).task? "task") := by
  have hx : ∀ t ∈ sampleEarlyStop .userStop, t.issued := by
    intro t ht
    rcases List.mem_pair.mp ht with rfl | rfl
    · trivial
    · exact ⟨_, rfl⟩
  have hb : Along Transaction.apply (benignStop "task") Store.empty (sampleEarlyStop .userStop) := by
    refine ⟨?_, ?_, trivial⟩
    · rintro _ _ _ _ ⟨⟩
    · rintro _ _ _ _ ⟨⟩ _ _
      decide
  exact ⟨hb, (reason_status_agree_iff Store.empty "task" rfl _ hx).2.mpr hb⟩

theorem early_stop_contradicts_reason :
    ((run Transaction.apply Store.empty (sampleEarlyStop .oomGuard)).task? "task").map
        (fun r => (r.status, r.terminationReason)) = some (.cancelled, some (.known .oomGuard)) ∧
      terminalStatusForTerminationReason (some (.known .oomGuard)) = .error := by
  decide

end Dvt.Tasks
