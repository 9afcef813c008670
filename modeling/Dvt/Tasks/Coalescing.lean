import Dvt.Tasks.Lifecycle

/-! Enqueuing a root execution leaves its project with one runnable root task, the freshest. -/

namespace Dvt.Tasks

open Library List

def admittedTask (job : Enqueue) (s : Store) : TaskRecord :=
  match s.task? job.taskId with
  | none => newTask job.now .queued job.toTaskExecution
  | some r => if r.status = .pending then markQueued job.now r else r

def Contends (job : Enqueue) (s : Store) (x : TaskRecord) : Prop :=
  x = admittedTask job s ∨ x ∈ s.tasks.rows ∧ x.taskId ≠ job.taskId ∧
    runnableRoot (admittedTask job s).projectId x = true

structure CoalescedTo (job : Enqueue) (s s' : Store)
    (result : EnqueueTaskResult) (winner : TaskRecord) : Prop where
  contends : Contends job s winner
  freshest : ∀ x, Contends job s x → freshness x ≤ freshness winner
  kept : s'.task? winner.taskId = some winner
  only : ∀ r ∈ s'.tasks.rows, r.projectId = winner.projectId → r.source ∈ rootExecutionSources →
    r.status = .pending ∨ r.status = .queued → r = winner
  cancelled : ∀ x, Contends job s x → x ≠ winner → s'.task? x.taskId = some (supersede job.now x)
  superseded : ∀ e, e ∈ result.superseded ↔ ∃ x, Contends job s x ∧ x ≠ winner ∧ toEntity x = e
  nodup : (result.superseded.map TaskExecution.taskId).Nodup
  frame : ∀ id r, s.task? id = some r → ¬ (r.status = .pending ∨ r.status = .queued) ∨
    r.source = .node ∨ r.projectId ≠ winner.projectId → s'.task? id = some r
  absent : ∀ id, s.task? id = none → id ≠ job.taskId → s'.task? id = none
  returned : ∃ r, s'.task? job.taskId = some r ∧ result.execution = toEntity r

section

variable (s : Store) (projectId : String)

lemma candidates_sorted :
    (candidates s projectId).Pairwise fun a b => freshness b ≤ freshness a := by
  exact pairwise_insertionSort _ _

lemma candidates_nodup : ((candidates s projectId).map TaskRecord.taskId).Nodup := by
  have hp : (candidates s projectId).Perm (s.tasks.select (runnableRoot projectId)) :=
    perm_insertionSort _ _
  rw [(hp.map _).nodup_iff]
  exact (Table.nodup_keys taskId_isKey s.tasks).sublist (filter_sublist.map _)

variable {s projectId}

lemma candidates_cons {winner : TaskRecord} {stale : List TaskRecord}
    (h : candidates s projectId = winner :: stale) :
    (∀ x ∈ candidates s projectId, freshness x ≤ freshness winner) ∧
      (∀ x ∈ candidates s projectId, x ∈ stale ↔ x ≠ winner) ∧
      staleIds s projectId = stale.map TaskRecord.taskId ∧
      winner.taskId ∉ stale.map TaskRecord.taskId := by
  have hsor := candidates_sorted s projectId
  have hn := candidates_nodup s projectId
  rw [staleIds]
  rw [h] at hsor hn ⊢
  obtain ⟨hnot, _⟩ := nodup_cons.mp hn
  refine ⟨?_, ?_, rfl, hnot⟩
  · intro x hx
    rcases mem_cons.mp hx with rfl | hx
    · exact le_rfl
    · exact (pairwise_cons.mp hsor).1 x hx
  · intro x hx
    constructor
    · rintro hs rfl
      exact hnot (mem_map_of_mem hs)
    · intro hne
      exact (mem_cons.mp hx).resolve_left hne

end

section

variable {job : Enqueue} {s s₁ : Store} {task : TaskRecord}

section

variable (h : Admits job (s.task? job.taskId) task)

include h

lemma Admits.eq_admittedTask : admittedTask job s = task := by
  rw [admittedTask]
  generalize s.task? job.taskId = o at h
  cases h with
  | new => rfl
  | pending hp => exact if_pos hp
  | queued hq => exact if_neg (by simp [hq])

lemma Admits.root (hroot : job.source ∈ rootExecutionSources)
    (hs : ∀ r, s.task? job.taskId = some r → r.source ∈ rootExecutionSources) :
    task.source ∈ rootExecutionSources := by
  generalize s.task? job.taskId = o at h hs
  cases h with
  | new => exact hroot
  | @pending r _ => exact hs r rfl
  | queued _ => exact hs task rfl

end

lemma contends_iff (ha : Admits job (s.task? job.taskId) task)
    (hsou : task.source ∈ rootExecutionSources)
    (hs : ∀ id, s₁.task? id = if job.taskId = id then some task else s.task? id)
    (x : TaskRecord) : Contends job s x ↔ x ∈ candidates s₁ task.projectId := by
  have ht : s₁.task? job.taskId = some task := by rw [hs, if_pos rfl]
  rw [Contends, ha.eq_admittedTask, mem_candidates]
  constructor
  · rintro (rfl | ⟨hx, hne, hrun⟩)
    · refine ⟨Store.task?_mem ht, runnableRoot_iff.mpr ⟨rfl, ?_, .inr ha.status⟩⟩
      exact mem_rootExecutionSources.mp hsou
    · have hl : s₁.task? x.taskId = some x := by
        rw [hs, if_neg hne.symm]
        exact Store.task?_of_mem hx
      exact ⟨Store.task?_mem hl, hrun⟩
  · rintro ⟨hx, hrun⟩
    have hl := Store.task?_of_mem hx
    rw [hs] at hl
    split at hl
    · exact .inl (Option.some.inj hl).symm
    · next hne => exact .inr ⟨Store.task?_mem hl, fun he => hne he.symm, hrun⟩

/-- `s₁` is the store with the task queued, whose candidates are the winner and those that the bulk
update cancels. -/
structure Contest (job : Enqueue) (s s₁ s' : Store)
    (result : EnqueueTaskResult) (task winner : TaskRecord) (stale : List TaskRecord) : Prop where
  contends : ∀ x, Contends job s x ↔ x ∈ candidates s₁ task.projectId
  queued : ∀ id, s₁.task? id = if job.taskId = id then some task else s.task? id
  sorted : candidates s₁ task.projectId = winner :: stale
  rows : ∀ id, s'.task? id = (s₁.task? id).map fun r =>
    if r.taskId ∈ stale.map TaskRecord.taskId then supersede job.now r else r
  superseded : result.superseded = stale.map toEntity

lemma enqueue_contest {s' : Store} {result : EnqueueTaskResult}
    (hroot : job.source ∈ rootExecutionSources)
    (ha : Admits job (s.task? job.taskId) task)
    (hsou : task.source ∈ rootExecutionSources)
    (hs : ∀ id, s₁.task? id = if job.taskId = id then some task else s.task? id)
    (hd : dispatchQueued job task s₁ = .ok (result, s')) :
    ∃ winner stale, Contest job s s₁ s' result task winner stale := by
  have hcont := contends_iff ha hsou hs
  have hmem : task ∈ candidates s₁ task.projectId :=
    (hcont task).mp (.inl ha.eq_admittedTask.symm)
  obtain ⟨winner, stale, hc⟩ := exists_cons_of_ne_nil (ne_nil_of_mem hmem)
  obtain ⟨hres, ht, _⟩ := dispatchQueued_ok hd
  refine ⟨winner, stale, hcont, hs, hc, ?_, ?_⟩
  · intro id
    rw [Store.task?, ht, coalesced_store, if_pos hroot, ← Store.task?, supersedeAll_task?,
      (candidates_cons hc).2.2.1]
  · rw [hres]
    simp only [coalesced, if_pos hroot, coalesce_eq, hc, tail_cons]

namespace Contest

variable {s' : Store} {result : EnqueueTaskResult} {winner : TaskRecord} {stale : List TaskRecord}

section

variable (h : Contest job s s₁ s' result task winner stale)

include h

lemma winner_mem : winner ∈ candidates s₁ task.projectId := h.sorted ▸ mem_cons_self

lemma project : winner.projectId = task.projectId :=
  (runnableRoot_iff.mp (mem_candidates.mp h.winner_mem).2).1

lemma kept : s'.task? winner.taskId = some winner := by
  rw [h.rows, candidate_row h.winner_mem, Option.map_some, if_neg (candidates_cons h.sorted).2.2.2]

end

variable {r : TaskRecord}

variable (h : Contest job s s₁ s' result task winner stale)

include h

lemma only (hr : r ∈ s'.tasks.rows) (hp : r.projectId = winner.projectId)
    (hsrc : r.source ∈ rootExecutionSources) (hst : r.status = .pending ∨ r.status = .queued) :
    r = winner := by
  have hl := Store.task?_of_mem hr
  rw [h.rows] at hl
  obtain ⟨q, hq, hqr⟩ := Option.map_eq_some_iff.mp hl
  split at hqr
  · subst hqr
    simp at hst
  · next hns =>
    subst hqr
    have hqc : q ∈ candidates s₁ task.projectId := mem_candidates.mpr ⟨Store.task?_mem hq,
      runnableRoot_iff.mpr ⟨hp.trans h.project, mem_rootExecutionSources.mp hsrc, hst⟩⟩
    by_contra hne
    exact hns (mem_map_of_mem (((candidates_cons h.sorted).2.1 q hqc).mpr hne))

lemma cancelled {x : TaskRecord} (hx : Contends job s x) (hne : x ≠ winner) :
    s'.task? x.taskId = some (supersede job.now x) := by
  have hxc := (h.contends x).mp hx
  have hxs : x.taskId ∈ stale.map TaskRecord.taskId :=
    mem_map_of_mem (((candidates_cons h.sorted).2.1 x hxc).mpr hne)
  rw [h.rows, candidate_row hxc, Option.map_some, if_pos hxs]

lemma mem_superseded (e : TaskExecution) :
    e ∈ result.superseded ↔ ∃ x, Contends job s x ∧ x ≠ winner ∧ toEntity x = e := by
  have hs := (candidates_cons h.sorted).2.1
  rw [h.superseded, mem_map]
  constructor
  · rintro ⟨x, hx, rfl⟩
    have hxc : x ∈ candidates s₁ task.projectId := h.sorted ▸ mem_cons_of_mem _ hx
    exact ⟨x, (h.contends x).mpr hxc, (hs x hxc).mp hx, rfl⟩
  · rintro ⟨x, hx, hne, rfl⟩
    exact ⟨x, (hs x ((h.contends x).mp hx)).mpr hne, rfl⟩

lemma nodup : (result.superseded.map TaskExecution.taskId).Nodup := by
  have hn := candidates_nodup s₁ task.projectId
  rw [h.sorted, map_cons, nodup_cons] at hn
  rw [h.superseded, map_map]
  exact hn.2

lemma frame {id : String} (hne : job.taskId ≠ id) (hr : s.task? id = some r)
    (hout : ¬ (r.status = .pending ∨ r.status = .queued) ∨ r.source = .node ∨
      r.projectId ≠ winner.projectId) : s'.task? id = some r := by
  have hr₁ : s₁.task? id = some r := by rw [h.queued, if_neg hne, hr]
  rw [h.rows, hr₁, Option.map_some, if_neg]
  intro hin
  rw [← (candidates_cons h.sorted).2.2.1] at hin
  obtain ⟨hp, hsrc, hst⟩ := runnableRoot_iff.mp (mem_staleIds (Store.task?_mem hr₁) hin)
  rcases hout with hout | hout | hout
  · exact hout hst
  · exact hsrc hout
  · exact hout (hp.trans h.project.symm)

end Contest

theorem enqueue_coalesces (job : Enqueue) (s s' : Store) (result : EnqueueTaskResult)
    (hroot : job.source ∈ rootExecutionSources)
    (hstored : ∀ r, s.task? job.taskId = some r →
      r.source ∈ rootExecutionSources ∧ (r.status = .pending ∨ r.status = .queued))
    (h : enqueueWithDispatch job s = .ok (result, s')) :
    ∃ winner, CoalescedTo job s s' result winner := by
  rcases enqueueWithDispatch_ok h with ⟨r, hr, hn, _⟩ | ⟨task, s₁, ha, hs, _, hd⟩
  · exact absurd (hstored r hr).2 hn
  have hsource := ha.root hroot fun r hr => (hstored r hr).1
  obtain ⟨winner, stale, hc⟩ := enqueue_contest hroot ha hsource hs hd
  have htask : s₁.task? job.taskId = some task := by rw [hs, if_pos rfl]
  refine ⟨winner, ?_⟩
  constructor
  · exact (hc.contends winner).mpr hc.winner_mem
  · intro x hx
    exact (candidates_cons hc.sorted).1 x ((hc.contends x).mp hx)
  · exact hc.kept
  · exact fun r => hc.only
  · exact fun x => hc.cancelled
  · exact hc.mem_superseded
  · exact hc.nodup
  · intro id r hr hout
    refine hc.frame ?_ hr hout
    -- the enqueued task itself is one of the contenders
    rintro rfl
    obtain ⟨hsrc, hst⟩ := hstored r hr
    rcases hout with hout | hout | hout
    · exact hout hst
    · exact mem_rootExecutionSources.mp hsrc hout
    · rw [hr] at ha
      rw [hc.project] at hout
      cases ha with
      | pending _ | queued _ => exact hout rfl
  · intro id hid hne
    rw [hc.rows, hs, if_neg hne.symm, hid]
    rfl
  · obtain ⟨hres, htasks, _⟩ := dispatchQueued_ok hd
    refine ⟨(coalesced job task s₁).1, ?_, by rw [hres]⟩
    rw [Store.task?, htasks, ← Store.task?_id htask]
    exact coalesced_current job (Store.task?_id htask ▸ htask)

def samplePending : Store :=
  (Transaction.createPending sampleTime (sampleExecution "newer" .api)).apply Store.empty

theorem enqueue_coalesces_samplePending :
    ∃ result s', enqueueWithDispatch (sampleJob "dispatch" "later" .ui) samplePending =
        .ok (result, s') ∧
      ∃ winner, CoalescedTo (sampleJob "dispatch" "later" .ui) samplePending s' result winner := by
  cases h : enqueueWithDispatch (sampleJob "dispatch" "later" .ui) samplePending with
  | error e =>
    have hok : (enqueueWithDispatch (sampleJob "dispatch" "later" .ui) samplePending).isOk = true := by
      decide
    rw [h] at hok
    cases hok
  | ok p =>
    have hnone : samplePending.task? "later" = none := by decide
    refine ⟨p.1, p.2, rfl, enqueue_coalesces _ _ _ _ (by decide) ?_ h⟩
    intro r hr
    cases hnone.symm.trans hr

end

end Dvt.Tasks
