import Dvt.Tasks.Lifecycle

/-! Publishing the dispatch outbox over an at-least-once transport. -/

namespace Dvt.Tasks

open Library List Relation Table

variable {now : DateTime} {dispatchId : String} {id : String} {job : Enqueue}

/-- What a pass has to send, and the outcome of a send that is not written yet. -/
structure Pass where
  todo : List DispatchOutboxItem
  outcome : Option (DispatchOutboxItem × Option String) := none
  published : ℕ := 0
  deriving DecidableEq

structure System where
  store : Store
  passes : List Pass
  sent : List DispatchOutboxItem

def System.empty : System := ⟨.empty, [], []⟩

def Transaction.ofPublisher : Transaction → Bool
  | .markDispatchPublished _ _ => true
  | .recordDispatchFailure _ _ => true
  | _ => false

inductive Event
  | call (t : Transaction) (notPublisher : t.ofPublisher = false)
  | startPass (limit : ℕ)
  | send (i : ℕ) (failure : Option String) (reached : Bool)
  | record (i : ℕ) (now : DateTime)
  | crash (i : ℕ)
  | deliver (k : ℕ) (now : DateTime) (workerId : String)

def outcomeTransaction (now : DateTime) : DispatchOutboxItem × Option String → Transaction
  | (dispatch, none) => .markDispatchPublished now dispatch.dispatchId
  | (dispatch, some error) => .recordDispatchFailure dispatch.dispatchId error

namespace System

def transaction (σ : System) : Event → Option Transaction
  | .call t _ => some t
  | .record i now => σ.passes[i]?.bind fun p => p.outcome.map (outcomeTransaction now)
  | .deliver k now workerId => σ.sent[k]?.map fun m => .claim now m.payload.taskId workerId
  | _ => none

def nextPass (p : Pass) (failure : Option String) : Pass :=
  match p.outcome, p.todo with
  | none, dispatch :: rest => { p with todo := rest, outcome := some (dispatch, failure) }
  | _, _ => p

def recorded (p : Pass) : Pass :=
  match p.outcome with
  | some (_, none) => { p with outcome := none, published := p.published + 1 }
  | some (_, some _) => { p with outcome := none }
  | none => p

def sending (p : Pass) : Option DispatchOutboxItem :=
  if p.outcome = none then p.todo.head? else none

def nextPasses (σ : System) : Event → List Pass
  | .startPass limit => σ.passes ++ [{ todo := pendingDispatches limit σ.store }]
  | .send i failure _ => σ.passes.modify i (nextPass · failure)
  | .record i _ => σ.passes.modify i recorded
  | .crash i => σ.passes.eraseIdx i
  | _ => σ.passes

def nextSent (σ : System) : Event → List DispatchOutboxItem
  | .send i failure reached =>
    if failure = none ∨ reached then σ.sent ++ ((σ.passes[i]?.bind sending).toList) else σ.sent
  | _ => σ.sent

def step (σ : System) (e : Event) : System where
  store := (σ.transaction e).elim σ.store (·.apply σ.store)
  passes := σ.nextPasses e
  sent := σ.nextSent e

def claims (id : String) (σ : System) (e : Event) : Prop :=
  ∃ now w, σ.transaction e = some (.claim now id w) ∧ (claim now id w σ.store).1 = true

lemma step_row (σ : System) (e : Event) (id : String) :
    ∃ t, RowStep id t (σ.store.task? id) ((σ.step e).store.task? id) := by
  simp only [step]
  cases σ.transaction e with
  | none => exact ⟨.recordDispatchFailure "" "", .keep⟩
  | some t => exact ⟨t, apply_row σ.store id t⟩

lemma run_status_closed {C : TaskExecutionStatus → Prop} (hC : ∀ a b, C a → Follows a b → C b)
    {σ : System} (xs : List Event) (h : ∃ r, σ.store.task? id = some r ∧ C r.status) :
    ∃ r, (run step σ xs).store.task? id = some r ∧ C r.status := by
  refine run_invariant (P := fun σ : System => ∃ r, σ.store.task? id = some r ∧ C r.status) xs ?_ h
  rintro σ e ⟨r, hs, hr⟩
  obtain ⟨t, hrow⟩ := step_row σ e id
  rw [hs] at hrow
  exact hrow.closed hC hr

theorem run_follows {σ : System} {r : TaskRecord} (h : σ.store.task? id = some r) (xs : List Event) :
    ∃ r', (run step σ xs).store.task? id = some r' ∧ ReflTransGen Follows r.status r'.status :=
  run_status_closed (fun _ _ hr => hr.tail) xs ⟨r, h, .refl⟩

end System

def Unclaimable (status : TaskExecutionStatus) : Prop :=
  status ≠ .pending ∧ status ≠ .queued ∧ status ≠ .assigned

lemma unclaimable_follows (a b : TaskExecutionStatus) (ha : Unclaimable a) (h : Follows a b) :
    Unclaimable b := by
  cases h with
  | queue => simp [Unclaimable] at ha
  | close _ hb => rcases hb with rfl | rfl <;> simp [Unclaimable]
  | _ => simp [Unclaimable]

variable {σ : System} {e : Event}

lemma not_claims_of_unclaimable
    (h : ∃ r, σ.store.task? id = some r ∧ Unclaimable r.status) : ¬ σ.claims id e := by
  rintro ⟨now, w, _, hc⟩
  obtain ⟨r, hr, hn⟩ := h
  obtain ⟨q, hq, hst⟩ := claim_true_iff.mp hc
  obtain rfl : r = q := Option.some.inj (hr.symm.trans hq)
  rcases hst with hst | hst
  · exact hn.2.1 hst
  · exact hn.2.2 hst

variable {s : Store}

lemma claim_applied {w : String} (h : (claim now id w s).1 = true) :
    ∃ r, ((Transaction.claim now id w).apply s).task? id = some r ∧ r.status = .started := by
  obtain ⟨r, hr, hst⟩ := claim_true_iff.mp h
  have hl : ((Transaction.claim now id w).apply s).task? id = (s.task? id).map _ :=
    lookup_update s.tasks (claimable id) (markStarted now w) (fun _ => rfl) (fun _ => rfl) id
  have hc : claimable id r = true := by simpa [claimable, Store.task?_id hr] using hst
  rw [hl, hr, Option.map_some, if_pos hc]
  exact ⟨_, rfl, rfl⟩

lemma claims_unclaimable (h : σ.claims id e) :
    ∃ r, (σ.step e).store.task? id = some r ∧ Unclaimable r.status := by
  obtain ⟨now, w, ht, hc⟩ := h
  obtain ⟨r, hr, hst⟩ := claim_applied hc
  exact ⟨r, by simpa [System.step, ht] using hr, by simp [Unclaimable, hst]⟩

lemma superseded_cancelled {s' : Store} {result : EnqueueTaskResult} {x : TaskExecution}
    (h : enqueueWithDispatch job s = .ok (result, s'))
    (hx : x ∈ result.superseded) : ∃ r, s'.task? x.taskId = some r ∧ r.status = .cancelled := by
  rcases enqueueWithDispatch_ok h with ⟨r, _, _, rfl, _⟩ | ⟨task, s₁, _, _, _, hd⟩
  · simp at hx
  · obtain ⟨rfl, ht, _⟩ := dispatchQueued_ok hd
    rw [coalesced_store] at ht
    by_cases hroot : job.source ∈ rootExecutionSources
    · simp only [coalesced, if_pos hroot, coalesce_eq] at hx
      rw [if_pos hroot] at ht
      obtain ⟨q, hq, rfl⟩ := mem_map.mp hx
      have hrow : s₁.task? q.taskId = some q := candidate_row (mem_of_mem_tail hq)
      have hid : q.taskId ∈ staleIds s₁ task.projectId := mem_map_of_mem hq
      refine ⟨supersede job.now q, ?_, rfl⟩
      change Table.lookup s'.tasks TaskRecord.taskId q.taskId = _
      rw [ht]
      change (supersedeAll job.now (staleIds s₁ task.projectId) s₁).task? q.taskId = _
      rw [supersedeAll_task?, hrow, Option.map_some, if_pos hid]
    · simp [coalesced, hroot] at hx

theorem claim_at_most_once (σ : System) (id : String) (xs ys : List Event) (a b : Event) :
    ((run System.step σ xs).claims id a → ¬ (run System.step σ (xs ++ a :: ys)).claims id b) ∧
    (∀ r, (run System.step σ xs).store.task? id = some r → r.status = .cancelled →
      ¬ (run System.step σ (xs ++ ys)).claims id b) ∧
    (∀ now reason hard notPublisher r, a = .call (.requestStop now id reason hard) notPublisher →
      (run System.step σ xs).store.task? id = some r → r.status = .pending ∨ r.status = .queued →
      ¬ (run System.step σ (xs ++ a :: ys)).claims id b) ∧
    (∀ job notPublisher result s', a = .call (.enqueueWithDispatch job) notPublisher →
      enqueueWithDispatch job (run System.step σ xs).store = .ok (result, s') →
      (∃ x ∈ result.superseded, x.taskId = id) →
      ¬ (run System.step σ (xs ++ a :: ys)).claims id b) := by
  have later : ∀ τ : System, (∃ r, τ.store.task? id = some r ∧ Unclaimable r.status) →
      ∀ zs, ¬ (run System.step τ zs).claims id b := by
    intro τ h zs
    exact not_claims_of_unclaimable (System.run_status_closed unclaimable_follows zs h)
  refine ⟨?_, ?_, ?_, ?_⟩
  · intro ha
    rw [run_append]
    exact later _ (claims_unclaimable ha) ys
  · intro r hr hst
    rw [run_append]
    exact later _ ⟨r, hr, by simp [Unclaimable, hst]⟩ ys
  · rintro now reason hard _ r rfl hr hst
    rw [run_append]
    exact later _ ⟨_, requestStop_early now reason hard hr hst, by simp [Unclaimable]⟩ ys
  · rintro job _ result s' rfl hs ⟨x, hx, rfl⟩
    rw [run_append]
    obtain ⟨r, hr, hst⟩ := superseded_cancelled hs hx
    refine later _ ⟨r, ?_, by simp [Unclaimable, hst]⟩ ys
    simpa [System.step, System.transaction, Transaction.apply, hs, committed] using hr

def sampleEnqueue : Event := .call (.enqueueWithDispatch (sampleJob "dispatch" "task" .ui)) rfl

def sampleCrash : List Event := [sampleEnqueue, .startPass 100, .send 0 none true, .crash 0]

def sampleResend : List Event := [.startPass 100, .send 0 none true, .record 0 sampleTime]

def sampleFinished : List Event := sampleResend ++ [.deliver 0 sampleTime "worker",
  .call (.markRunning sampleTime "task" "worker") rfl,
  .call (.finalize sampleTime "task" "worker" .success none none) rfl]

theorem run_follows_sampleFinished : ∃ r r',
    (System.empty.step sampleEnqueue).store.task? "task" = some r ∧ r.status = .queued ∧
    (run System.step (System.empty.step sampleEnqueue) sampleFinished).store.task? "task" = some r' ∧
    r'.status = .success ∧ ReflTransGen Follows r.status r'.status := by
  obtain ⟨r, hr⟩ : ∃ r, (System.empty.step sampleEnqueue).store.task? "task" = some r := ⟨_, rfl⟩
  obtain ⟨r', hr', hf⟩ := System.run_follows hr sampleFinished
  have hst : ((run System.step (System.empty.step sampleEnqueue) sampleFinished).store.task? "task").map
      TaskRecord.status = some .success := by decide
  rw [hr'] at hst
  exact ⟨r, r', hr, by cases hr; rfl, hr', Option.some.inj hst, hf⟩

theorem claim_at_most_once_sampleCrash :
    (run System.step .empty sampleCrash).claims "task" (.deliver 0 sampleTime "first") ∧
      ¬ (run System.step .empty
        (sampleCrash ++ .deliver 0 sampleTime "first" :: sampleResend)).claims "task"
          (.deliver 1 sampleTime "second") := by
  have h : (run System.step .empty sampleCrash).claims "task" (.deliver 0 sampleTime "first") :=
    ⟨sampleTime, "first", rfl, by decide⟩
  exact ⟨h, (claim_at_most_once .empty "task" sampleCrash sampleResend _ _).1 h⟩

section

inductive DispatchStep (t : Transaction) (s s' : Store) : TaskDispatchOutboxRecord → Prop
  | keep {d} : d ∈ s.outbox.rows → DispatchStep t s s' d
  | cancelled {d} : d ∈ s.outbox.rows → d.publishedAt = none →
      (∃ r, s'.task? d.taskId = some r ∧ r.status = .cancelled) →
      DispatchStep t s s' (cancelDispatch d)
  | added {d} : d.status = .pending → d.publishedAt = none → DispatchStep t s s' d
  | published {d now} : t = .markDispatchPublished now d.id → d ∈ s.outbox.rows →
      d.publishedAt = none →
      DispatchStep t s s' { d with status := .published, publishedAt := some now, lastError := none }
  | failed {d} {error : String} : t = .recordDispatchFailure d.id error → d ∈ s.outbox.rows →
      DispatchStep t s s' { d with
        attempts := d.attempts + 1
        lastError := some (String.ofList (error.toList.take 1000)) }

variable {s' : Store} {t : Transaction}

lemma dispatch_unchanged {s : Store} (h : s'.outbox = s.outbox) :
    ∀ d ∈ s'.outbox.rows, DispatchStep t s s' d := fun _ hd => .keep (h ▸ hd)

variable (s : Store)

section

variable (now : DateTime) (taskId w : String) (execution : TaskExecution) (message : Option String)
  (reason : Option StoredReason)

lemma createPending_outbox :
    ((Transaction.createPending now execution).apply s).outbox = s.outbox := by
  simp only [Transaction.apply, createPending]
  cases s.task? execution.taskId with
  | some r => rfl
  | none =>
    cases hi : insertTask s (newTask now .pending execution) with
    | error e => rfl
    | ok s' => exact (insertTask_ok hi).1

lemma finalize_outbox (status : TaskExecutionStatus) :
    ((Transaction.finalize now taskId w status message reason).apply s).outbox = s.outbox := by
  simp only [Transaction.apply, finalize]
  split
  · rfl
  · cases s.task? taskId with
    | none => rfl
    | some r =>
      simp only
      split <;> rfl

lemma finalizeReconciled_outbox :
    ((Transaction.finalizeReconciled now taskId reason message).apply s).outbox = s.outbox := by
  simp only [Transaction.apply, finalizeReconciled]
  cases s.task? taskId with
  | none => rfl
  | some r =>
    simp only
    split <;> rfl

lemma failPending_outbox :
    ((Transaction.failPending now taskId reason message).apply s).outbox = s.outbox := by
  simp only [Transaction.apply, failPending]
  cases s.task? taskId with
  | none => rfl
  | some r =>
    simp only
    split
    · rfl
    · split <;> rfl

end

lemma requestStop_dispatch (now : DateTime) (taskId : String) (reason : StoredReason) (hard : Bool) :
    ∀ d ∈ ((Transaction.requestStop now taskId reason hard).apply s).outbox.rows,
      DispatchStep (.requestStop now taskId reason hard) s
        ((Transaction.requestStop now taskId reason hard).apply s) d := by
  cases hr : s.task? taskId with
  | none => exact dispatch_unchanged (by simp only [Transaction.apply, requestStop, hr])
  | some r =>
    by_cases hst : r.status = .pending ∨ r.status = .queued
    · have hrow := requestStop_early now reason hard hr hst
      have hn : r.status ∉ terminalStatuses := by rcases hst with h | h <;> simp [h]
      intro d hd
      simp only [Transaction.apply, requestStop, hr, if_neg hn, if_pos hst] at hd
      obtain ⟨q, hq, rfl⟩ := mem_map.mp hd
      split
      · next hc =>
        obtain ⟨rfl, hp⟩ := of_decide_eq_true hc
        exact .cancelled hq hp ⟨_, hrow, rfl⟩
      · exact .keep hq
    · refine dispatch_unchanged ?_
      simp only [Transaction.apply, requestStop, hr, if_neg hst]
      split <;> rfl

variable {d : TaskDispatchOutboxRecord}

lemma supersedeAll_outbox {ids : List String} (hd : d ∈ (supersedeAll now ids s).outbox.rows) :
    d ∈ s.outbox.rows ∨
      ∃ q ∈ s.outbox.rows, q.publishedAt = none ∧ q.taskId ∈ ids ∧ d = cancelDispatch q := by
  obtain ⟨q, hq, rfl⟩ := mem_map.mp hd
  split
  · next hc =>
    obtain ⟨hid, hp⟩ := of_decide_eq_true hc
    exact .inr ⟨q, hq, hp, hid, rfl⟩
  · exact .inl hq

variable {task : TaskRecord} {s₁ : Store} {result : EnqueueTaskResult}

lemma dispatchQueued_outbox (h : dispatchQueued job task s₁ = .ok (result, s'))
    (hd : d ∈ s'.outbox.rows) :
    d ∈ (coalesced job task s₁).2.2.outbox.rows ∨ d = job.dispatch := by
  obtain ⟨_, _, ⟨_, ho⟩ | ⟨_, ho⟩ | ⟨_, hi⟩⟩ := dispatchQueued_ok h
  · exact .inl (ho ▸ hd)
  · exact .inl (ho ▸ hd)
  · rw [rows_insert hi, mem_append, mem_singleton] at hd
    exact hd

lemma coalesced_outbox (hd : d ∈ (coalesced job task s₁).2.2.outbox.rows) :
    d ∈ s₁.outbox.rows ∨ ∃ q ∈ s₁.outbox.rows, q.publishedAt = none ∧ d = cancelDispatch q ∧
      ∃ r, (coalesced job task s₁).2.2.task? q.taskId = some r ∧ r.status = .cancelled := by
  rw [coalesced_store] at hd ⊢
  split at hd
  · next hroot =>
    rcases supersedeAll_outbox s₁ hd with hd | ⟨q, hq, hp, hid, rfl⟩
    · exact .inl hd
    · refine .inr ⟨q, hq, hp, rfl, ?_⟩
      obtain ⟨r, hr, hrid⟩ := mem_map.mp hid
      have hrow : s₁.task? q.taskId = some r :=
        hrid ▸ candidate_row (mem_of_mem_tail hr)
      refine ⟨supersede job.now r, ?_, rfl⟩
      rw [if_pos hroot, supersedeAll_task?, hrow, Option.map_some, if_pos (hrid ▸ hid)]
  · exact .inl hd

lemma enqueueWithDispatch_dispatch (job : Enqueue) :
    ∀ d ∈ ((Transaction.enqueueWithDispatch job).apply s).outbox.rows,
      DispatchStep (.enqueueWithDispatch job) s ((Transaction.enqueueWithDispatch job).apply s) d := by
  simp only [Transaction.apply]
  cases he : enqueueWithDispatch job s with
  | error e => exact dispatch_unchanged rfl
  | ok p =>
    simp only [committed]
    rcases enqueueWithDispatch_ok he with ⟨_, _, _, _, rfl⟩ | ⟨task, s₁, _, _, ho, hd⟩
    · exact dispatch_unchanged rfl
    intro d hmem
    rcases dispatchQueued_outbox hd hmem with hc | rfl
    · rcases coalesced_outbox hc with hc | ⟨q, hq, hp, rfl, r, hr, hst⟩
      · exact .keep (ho ▸ hc)
      · have ht := (dispatchQueued_ok hd).2.1
        refine .cancelled (ho ▸ hq) hp ⟨r, ?_, hst⟩
        rwa [Store.task?, ht]
    · exact .added rfl rfl

theorem apply_dispatch (t : Transaction) :
    ∀ d ∈ (t.apply s).outbox.rows, DispatchStep t s (t.apply s) d := by
  cases t with
  | createPending now execution => exact dispatch_unchanged (createPending_outbox ..)
  | enqueueWithDispatch job => exact enqueueWithDispatch_dispatch s job
  | claim now taskId w | markRunning now taskId w => exact dispatch_unchanged rfl
  | finalize now taskId w status message reason => exact dispatch_unchanged (finalize_outbox ..)
  | finalizeReconciled now taskId reason message =>
    exact dispatch_unchanged (finalizeReconciled_outbox ..)
  | failPending now taskId reason message => exact dispatch_unchanged (failPending_outbox ..)
  | requestStop now taskId reason hard => exact requestStop_dispatch s now taskId reason hard
  | markDispatchPublished now dispatchId =>
    intro d hd
    obtain ⟨q, hq, rfl⟩ := mem_map.mp hd
    split
    · next hc =>
      obtain ⟨rfl, hp⟩ := of_decide_eq_true hc
      exact .published rfl hq hp
    · exact .keep hq
  | recordDispatchFailure dispatchId error =>
    intro d hd
    obtain ⟨q, hq, rfl⟩ := mem_map.mp hd
    split
    · next hc =>
      obtain rfl := of_decide_eq_true hc
      exact .failed rfl hq
    · exact .keep hq

lemma apply_keeps_dispatch (t : Transaction) {taskId : String}
    (h : ∃ d ∈ s.outbox.rows, d.taskId = taskId) :
    ∃ d ∈ (t.apply s).outbox.rows, d.taskId = taskId := by
  have updated : ∀ (s₁ : Store) (p : TaskDispatchOutboxRecord → Bool) (f) (hf),
      (∃ d ∈ s₁.outbox.rows, d.taskId = taskId) →
        ∃ d ∈ (s₁.outbox.update p f hf).rows, d.taskId = taskId := by
    rintro s₁ p f hf ⟨d, hd, rfl⟩
    refine ⟨_, mem_map_of_mem hd, ?_⟩
    split
    · exact congrArg Prod.snd (hf d)
    · rfl
  cases t with
  | createPending now execution => rwa [createPending_outbox]
  | claim now id w | markRunning now id w => exact h
  | finalize now id w status message reason => rwa [finalize_outbox]
  | finalizeReconciled now id reason message => rwa [finalizeReconciled_outbox]
  | failPending now id reason message => rwa [failPending_outbox]
  | markDispatchPublished now dispatchId | recordDispatchFailure dispatchId error =>
    refine updated s _ _ ?_ h
    exact fun _ => rfl
  | requestStop now id reason hard =>
    simp only [Transaction.apply, requestStop]
    cases s.task? id with
    | none => exact h
    | some r =>
      simp only
      split
      · exact h
      · split
        · refine updated s _ _ ?_ h
          exact fun _ => rfl
        · exact h
  | enqueueWithDispatch job =>
    simp only [Transaction.apply]
    cases he : enqueueWithDispatch job s with
    | error e => exact h
    | ok p =>
      rcases enqueueWithDispatch_ok he with ⟨_, _, _, _, rfl⟩ | ⟨task, s₁, _, _, ho, hd⟩
      · exact h
      have hc : ∃ d ∈ (coalesced job task s₁).2.2.outbox.rows, d.taskId = taskId := by
        rw [coalesced_store]
        rw [← ho] at h
        split
        · refine updated s₁ _ _ ?_ h
          exact fun _ => rfl
        · exact h
      obtain ⟨_, _, ⟨_, ho'⟩ | ⟨_, ho'⟩ | ⟨_, hi⟩⟩ := dispatchQueued_ok hd
      · simpa only [committed, ho'] using hc
      · simpa only [committed, ho'] using hc
      · obtain ⟨d, hmem, hid⟩ := hc
        refine ⟨d, ?_, hid⟩
        rw [committed, rows_insert hi]
        exact mem_append_left _ hmem

lemma enqueueWithDispatch_queued {r : TaskRecord} (h : enqueueWithDispatch job s = .ok (result, s'))
    (hr : s'.task? job.taskId = some r) (hst : r.status = .queued) :
    ∃ d ∈ s'.outbox.rows, d.taskId = job.taskId := by
  rcases enqueueWithDispatch_ok h with ⟨q, hq, hn, _, rfl⟩ | ⟨task, s₁, _, hs, _, hd⟩
  · obtain rfl : q = r := Option.some.inj (hq.symm.trans hr)
    exact absurd (.inr hst) hn
  have htask : s₁.task? job.taskId = some task := by rw [hs, if_pos rfl]
  have hid := Store.task?_id htask
  have hcur := coalesced_current job (hid.symm ▸ htask)
  obtain ⟨_, ht, ⟨hc, _⟩ | ⟨hsome, ho⟩ | ⟨_, hi⟩⟩ := dispatchQueued_ok hd
  · rw [hid, Store.task?, ← ht, ← Store.task?, hr, Option.some.injEq] at hcur
    simp [← hcur, hst] at hc
  · obtain ⟨d, hd'⟩ := Option.isSome_iff_exists.mp hsome
    exact ⟨d, ho ▸ lookup_mem hd', lookup_key hd'⟩
  · rw [rows_insert hi]
    exact ⟨_, mem_append_right _ (mem_singleton_self _), rfl⟩

lemma RowStep.queued {o : Option TaskRecord} {r' : TaskRecord}
    (h : RowStep id t o (some r')) (hst : r'.status = .queued) :
    o = some r' ∨ ∃ job, t = .enqueueWithDispatch job ∧ job.taskId = id := by
  cases h with
  | keep => exact .inl rfl
  | admitted hid _ => exact .inr ⟨_, rfl, hid⟩
  | finalized ht _ =>
    simp only [settle_status] at hst
    simp [hst] at ht
  | @reconciled _ reason _ r _ =>
    rcases terminalStatus_mem (chooseTerminationReason r.terminationReason reason false) with h | h
    · simp [h] at hst
    · simp [h] at hst
  | _ => simp at hst

structure Accounted (s : Store) : Prop where
  queued : ∀ id r, s.task? id = some r → r.status = .queued → ∃ d ∈ s.outbox.rows, d.taskId = id
  cancelled : ∀ d ∈ s.outbox.rows, d.status = .cancelled → d.publishedAt = none →
    ∃ r, s.task? d.taskId = some r ∧ r.status ∈ terminalStatuses
  published : ∀ d ∈ s.outbox.rows, d.status = .published → d.publishedAt ≠ none

variable {s}

lemma Accounted.apply_queued (h : Accounted s) (t : Transaction) (id : String) (r : TaskRecord)
    (hr : (t.apply s).task? id = some r) (hst : r.status = .queued) :
    ∃ d ∈ (t.apply s).outbox.rows, d.taskId = id := by
  have hrow := apply_row s id t
  rw [hr] at hrow
  rcases hrow.queued hst with hold | ⟨job, rfl, rfl⟩
  · exact apply_keeps_dispatch s t (h.queued id r hold hst)
  · simp only [Transaction.apply] at hr ⊢
    cases he : enqueueWithDispatch job s with
    | error e =>
      rw [he] at hr
      exact h.queued _ r hr hst
    | ok p =>
      rw [he] at hr
      exact enqueueWithDispatch_queued s he hr hst

lemma Accounted.apply (h : Accounted s) (t : Transaction) : Accounted (t.apply s) := by
  have still : ∀ d ∈ s.outbox.rows, d.status = .cancelled → d.publishedAt = none →
      ∃ r, (t.apply s).task? d.taskId = some r ∧ r.status ∈ terminalStatuses := by
    intro d hd hst hp
    obtain ⟨r, hr, ht⟩ := h.cancelled d hd hst hp
    exact ⟨r, (hr ▸ apply_row s d.taskId t).terminal ht, ht⟩
  refine ⟨h.apply_queued t, ?_, ?_⟩
  · intro d hd hst hp
    cases apply_dispatch s t d hd with
    | keep hq => exact still d hq hst hp
    | cancelled _ _ hr =>
      obtain ⟨r, hr, hc⟩ := hr
      exact ⟨r, hr, by simp [hc]⟩
    | added hadd _ => simp [hst] at hadd
    | published _ _ _ => cases hst
    | @failed q _ _ hq => exact still q hq hst hp
  · intro d hd hst
    cases apply_dispatch s t d hd with
    | keep hq => exact h.published d hq hst
    | cancelled _ _ _ => cases hst
    | added hadd _ => simp [hst] at hadd
    | published _ _ _ => exact Option.some_ne_none _
    | @failed q _ _ hq => exact h.published q hq hst

lemma mem_pendingDispatches {limit : ℕ} (hd : d ∈ s.outbox.rows)
    (hst : d.status = .pending) (hp : d.publishedAt = none) (hl : s.outbox.rows.length ≤ limit) :
    toDispatch d ∈ pendingDispatches limit s := by
  apply mem_map_of_mem
  rw [take_of_length_le]
  · rw [mem_insertionSort, mem_select]
    exact ⟨hd, decide_eq_true ⟨hst, hp⟩⟩
  · rw [length_insertionSort]
    exact (length_filter_le _ _).trans hl

end

namespace System

def OutcomesSent (σ : System) : Prop :=
  ∀ p ∈ σ.passes, ∀ m, p.outcome = some (m, none) → m ∈ σ.sent

lemma nextPass_cases (p : Pass) (failure : Option String) :
    nextPass p failure = p ∨ ∃ m, sending p = some m ∧
      (nextPass p failure).outcome = some (m, failure) := by
  rw [nextPass, sending]
  split
  · next m rest ho ht => exact .inr ⟨m, by rw [if_pos ho, ht]; rfl, rfl⟩
  · exact .inl rfl

lemma mem_nextSent {m : DispatchOutboxItem} (e : Event) (h : m ∈ σ.sent) : m ∈ σ.nextSent e := by
  simp only [nextSent]
  split
  · split
    · exact mem_append_left _ h
    · exact h
  · exact h

lemma step_outcomesSent (h : σ.OutcomesSent) (e : Event) : (σ.step e).OutcomesSent := by
  intro p hp m hm
  have old : p ∈ σ.passes → m ∈ (σ.step e).sent := fun hold => mem_nextSent e (h p hold m hm)
  cases e with
  | call t ht | deliver k now w => exact old hp
  | crash i => exact old (mem_of_mem_eraseIdx hp)
  | startPass limit =>
    rcases mem_append.mp hp with hp | hp
    · exact old hp
    · obtain rfl := mem_singleton.mp hp
      cases hm
  | record i now =>
    rcases mem_modify hp with hp | ⟨q, _, rfl⟩
    · exact old hp
    · rw [recorded] at hm
      split at hm <;> simp_all
  | send i failure reached =>
    rcases mem_modify hp with hp | ⟨q, hq, rfl⟩
    · exact old hp
    · rcases nextPass_cases q failure with he | ⟨m', hs, ho⟩
      · rw [he] at hm old
        exact old (mem_of_getElem? hq)
      · rw [ho] at hm
        cases hm
        simp [step, nextSent, hq, hs]

def Marks (σ : System) (dispatchId : String) (e : Event) : Prop :=
  ∃ i now p m, e = .record i now ∧ σ.passes[i]? = some p ∧ p.outcome = some (m, none) ∧
    m.dispatchId = dispatchId ∧ m ∈ σ.sent

lemma marks_of_transaction (h : σ.OutcomesSent)
    (ht : σ.transaction e = some (.markDispatchPublished now dispatchId)) :
    σ.Marks dispatchId e := by
  cases e with
  | call t hp =>
    cases ht
    cases hp
  | record i now =>
    obtain ⟨p, hp, ho⟩ := Option.bind_eq_some_iff.mp ht
    obtain ⟨⟨m, failure⟩, hout, ht⟩ := Option.map_eq_some_iff.mp ho
    cases failure with
    | some error => cases ht
    | none =>
      cases ht
      exact ⟨i, now, p, m, rfl, hp, hout, rfl, h p (mem_of_getElem? hp) m hout⟩
  | deliver k now w =>
    obtain ⟨m, _, ht⟩ := Option.map_eq_some_iff.mp ht
    cases ht
  | _ => cases ht

def Published (dispatchId : String) (σ : System) : Prop :=
  ∃ d ∈ σ.store.outbox.rows, d.id = dispatchId ∧ d.publishedAt ≠ none

lemma published_by_mark (h : σ.OutcomesSent)
    (hn : ¬ σ.Published dispatchId) (hp : (σ.step e).Published dispatchId) :
    σ.Marks dispatchId e := by
  obtain ⟨d, hd, rfl, hpub⟩ := hp
  simp only [step] at hd
  cases ht : σ.transaction e with
  | none =>
    rw [ht] at hd
    exact absurd ⟨d, hd, rfl, hpub⟩ hn
  | some t =>
    rw [ht] at hd
    cases apply_dispatch σ.store t d hd with
    | keep hq => exact absurd ⟨d, hq, rfl, hpub⟩ hn
    | cancelled _ hnone _ | added _ hnone => exact absurd hnone hpub
    | @failed q _ _ hq => exact absurd ⟨q, hq, rfl, hpub⟩ hn
    | published he _ _ => exact marks_of_transaction h (he ▸ ht)

lemma run_published (xs : List Event) (h : (run step empty xs).Published dispatchId) :
    ∃ pre e post, xs = pre ++ e :: post ∧ (run step empty pre).Marks dispatchId e := by
  obtain ⟨pre, e, post, rfl, hn, hp⟩ := exists_switch (P := Published dispatchId) xs
    (by rintro ⟨d, hd, _⟩; cases hd) h
  refine ⟨pre, e, post, rfl, published_by_mark ?_ hn hp⟩
  refine run_invariant (P := OutcomesSent) pre (fun σ e h => step_outcomesSent h e) ?_
  intro p hp
  cases hp

theorem no_lost_dispatch (xs : List Event) :
    (∀ r ∈ (run step empty xs).store.tasks.rows, r.status = .queued →
      ∃ d, ((run step empty xs).store.outbox.select fun q => q.taskId = r.taskId) = [d] ∧
        ((∀ limit, (run step empty xs).store.outbox.rows.length ≤ limit →
            toDispatch d ∈ pendingDispatches limit (run step empty xs).store) ∨
          d.publishedAt ≠ none ∧
            ∃ pre e post, xs = pre ++ e :: post ∧ (run step empty pre).Marks d.id e)) ∧
    ∀ d ∈ (run step empty xs).store.outbox.rows, d.status = .cancelled → d.publishedAt = none →
      ∃ r, (run step empty xs).store.task? d.taskId = some r ∧ r.status ∈ terminalStatuses := by
  have hacc : Accounted (run step empty xs).store :=
    run_invariant (P := fun σ : System => Accounted σ.store) xs (fun σ e h => by
      simp only [step]
      cases σ.transaction e with
      | none => exact h
      | some t => exact h.apply t)
      ⟨fun _ _ h => (by cases h), fun _ h => (by cases h), fun _ h => (by cases h)⟩
  refine ⟨?_, hacc.cancelled⟩
  intro r hr hst
  have hrow := Store.task?_of_mem hr
  obtain ⟨d, hd, hid⟩ := hacc.queued r.taskId r hrow hst
  refine ⟨d, hid ▸ select_key dispatchTask_isKey hd, ?_⟩
  cases hp : d.publishedAt with
  | some t =>
    have hpub : (run step empty xs).Published d.id := ⟨d, hd, rfl, by simp [hp]⟩
    exact .inr ⟨Option.some_ne_none t, run_published xs hpub⟩
  | none =>
    refine .inl fun limit hl => mem_pendingDispatches hd ?_ hp hl
    cases hs : d.status with
    | pending => rfl
    | published => exact absurd hp (hacc.published d hd hs)
    | cancelled =>
      obtain ⟨q, hq, hterm⟩ := hacc.cancelled d hd hs hp
      obtain rfl : q = r := Option.some.inj (hq.symm.trans (hid ▸ hrow))
      simp [hst] at hterm

end System

end Dvt.Tasks
