import Dvt.Execution.Invariants
import Dvt.Pipelines.Restoring

/-! The orders of a run: each node comes after what it reads. -/

namespace Dvt.Execution

open Library Pipelines List

variable {α τ : Type}

section

variable (P : Processor α τ)

def Processor.Heeds (s : State α) (order : List String) : Prop :=
  ∀ before n after, order = before ++ n :: after → ∀ m, Feeds P.task.pipeline m n →
    m ∈ before ∨ m ∈ s.completedNodeIds

structure Planned (s : State α) : Prop where
  consistent : Consistent P s
  sublist : s.effectiveExecutionOrder.Sublist (fullOrder P.task.pipeline)
  heeds : P.Heeds s s.effectiveExecutionOrder

variable {P} {W : World α} {s s' : State α} {order : List String}

structure Unstarted (s : State α) : Prop where
  planned : s.plannedExecutionOrder = none
  completed : s.completedNodeIds = []
  recoverable : s.recoverableFailedNodeIds = []
  executed : s.executedNodes = []
  failed : s.failedNodes = []
  skipped : s.skippedNodes = []
  restored : s.restoredNodes = []
  outputs : s.nodesOutputs = fun _ _ => none
  signals : s.nodeSignalStates = fun _ _ => false
  kwargsCalls : s.kwargsCalls = []
  executeCalls : s.executeCalls = []

lemma Unstarted.consistent (h : Unstarted s) : Consistent P s where
  outputs := by simp [h.completed]
  silent := by simp [h.outputs, h.signals]
  origin := by simp [h.completed]
  recoverable := by simp [h.recoverable]
  executed := by simp [h.executed]
  skipped := by simp [h.skipped]

lemma unstarted_initial (order : List String) : Unstarted (State.initial order : State α) :=
  ⟨rfl, rfl, rfl, rfl, rfl, rfl, rfl, rfl, rfl, rfl, rfl⟩

structure Restores (s : State α) (ids : List String) (s' : State α) : Prop where
  executionOrder : s'.executionOrder = s.executionOrder
  completed : ∀ m, m ∈ s'.completedNodeIds ↔ m ∈ s.completedNodeIds ∨ m ∈ ids
  recoverable : s'.recoverableFailedNodeIds = s.recoverableFailedNodeIds
  executed : s'.executedNodes = s.executedNodes
  failed : s'.failedNodes = s.failedNodes
  skipped : s'.skippedNodes = s.skippedNodes
  restored : s'.restoredNodes = s.restoredNodes ++ ids
  taskCalls : s'.taskCalls = s.taskCalls
  kwargsCalls : s'.kwargsCalls = s.kwargsCalls
  executeCalls : s'.executeCalls = s.executeCalls

lemma Restores.trans {s₁ : State α} {ids ids' : List String} (h : Restores s ids s₁)
    (h' : Restores s₁ ids' s') : Restores s (ids ++ ids') s' where
  executionOrder := h'.executionOrder.trans h.executionOrder
  completed m := by rw [h'.completed, h.completed, mem_append, or_assoc]
  recoverable := h'.recoverable.trans h.recoverable
  executed := h'.executed.trans h.executed
  failed := h'.failed.trans h.failed
  skipped := h'.skipped.trans h.skipped
  restored := by rw [h'.restored, h.restored, append_assoc]
  taskCalls := h'.taskCalls.trans h.taskCalls
  kwargsCalls := h'.kwargsCalls.trans h.kwargsCalls
  executeCalls := h'.executeCalls.trans h.executeCalls

lemma applyRestoredEntry_spec {cache : Cache} {entry : String × Generation} (h : Consistent P s)
    (hfresh : entry.1 ∉ s.completedNodeIds)
    (hplan : restorePlan P.registry cache P.task entry.1 = some entry.2) :
    Consistent P (P.applyRestoredEntry W s entry) ∧
      Restores s [entry.1] (P.applyRestoredEntry W s entry) := by
  obtain ⟨data, nodeClass, hdata, hclass, hget, hcan⟩ := restorePlan_eq_some hplan
  obtain ⟨hs, hn⟩ := Option.filter_eq_some_iff.mp hget
  have hn : entry.2.outputNames = nodeClass.outputNames := (of_decide_eq_true hn).2.2
  have ho : nodeClass.outputNode = false := by
    simp only [canRestore, decide_eq_true_eq] at hcan
    simpa using hcan.2.2.2.2
  have hpolicy : P.shouldSkipOutputNode nodeClass = false := by
    simp [Processor.shouldSkipOutputNode, ho]
  have hi : ¬ P.Idle entry.1 := by
    rintro (hkey | ⟨data', nodeClass', hdata', hclass', hpolicy'⟩)
    · exact hkey (Dict.mem_keys.mpr ⟨data, hdata⟩)
    · cases hdata.symm.trans hdata'
      cases hclass.symm.trans hclass'
      exact absurd hpolicy' (by rw [hpolicy]; decide)
  rw [Processor.applyRestoredEntry, hdata]
  refine ⟨h.of_completes ⟨entry.1, data, nodeClass⟩
    ((grows_storeOutputs hfresh hi).trans ⟨rfl, subset_cons_self _ _, List.Subset.refl _,
      List.Subset.refl _, List.Subset.refl _, subset_append_left _ _, rfl, fun _ _ => rfl⟩)
    hdata hclass hpolicy ?_, ?_⟩
  · dsimp only [Processor.storeOutputs]
    refine ⟨rfl, rfl, ?_, fun m hm => ⟨Function.update_of_ne hm _ _, Function.update_of_ne hm _ _⟩,
      fun _ hm => .inl hm, ?_, fun _ hm => .inl hm⟩
    · intro name
      dsimp only
      rw [Function.update_self, hn]
      split <;> simp [*]
    · rintro m (rfl | hm | hm | hm)
      · exact .inr (.inl (mem_append_right _ mem_cons_self))
      · exact .inl hm
      · exact .inr (.inl (mem_append_left _ hm))
      · exact .inr (.inr hm)
  · refine ⟨rfl, ?_, rfl, rfl, rfl, rfl, rfl, rfl, rfl, rfl⟩
    intro m
    rw [mem_cons, mem_singleton, or_comm]

lemma foldl_applyRestoredEntry {entries : List (String × Generation)} (h : Consistent P s)
    (hnod : (entries.map Prod.fst).Nodup)
    (hfresh : ∀ n ∈ entries.map Prod.fst, n ∉ s.completedNodeIds)
    (hp : ∀ entry ∈ entries, ∃ cache, restorePlan P.registry cache P.task entry.1 = some entry.2) :
    Consistent P (entries.foldl (P.applyRestoredEntry W) s) ∧
      Restores s (entries.map Prod.fst) (entries.foldl (P.applyRestoredEntry W) s) := by
  induction entries generalizing s with
  | nil =>
    exact ⟨h, ⟨rfl, by simp, rfl, rfl, rfl, rfl, by simp, rfl, rfl, rfl⟩⟩
  | cons entry entries ih =>
    rw [map_cons, nodup_cons] at hnod
    obtain ⟨cache, hplan⟩ := hp entry mem_cons_self
    obtain ⟨hnext, hone⟩ := applyRestoredEntry_spec (W := W) h (hfresh entry.1 mem_cons_self) hplan
    obtain ⟨hl, hm⟩ := ih hnext hnod.2 (fun n hn hc => by
        rcases (hone.completed n).mp hc with hold | he
        · exact hfresh n (mem_cons_of_mem _ hn) hold
        · exact hnod.1 (mem_singleton.mp he ▸ hn))
      (fun e he => hp e (mem_cons_of_mem _ he))
    exact ⟨hl, hone.trans hm⟩

lemma heeds_of_closed {planned restored : List String}
    (hsub : planned.Sublist (fullOrder P.task.pipeline))
    (hr : ∀ n ∈ restored, n ∈ s.completedNodeIds)
    (hi : ∀ n ∈ planned, ∀ m, Feeds P.task.pipeline m n → m ∈ planned ∨ m ∈ restored) :
    P.Heeds s planned := by
  intro before n after hs m hf
  have hn : n ∈ planned := hs ▸ mem_append_right _ mem_cons_self
  rcases hi n hn m hf with hm | hm
  · exact .inl (mem_before_of_feeds hsub hs hm hf)
  · exact .inr (hr m hm)

lemma foldl_restoredNodes {run : Run} (hs : Unstarted s)
    (hrun : Restoring P.registry W.caches P.task run) :
    Consistent P (run.restoredNodes.foldl (P.applyRestoredEntry W) s) ∧
      Restores s run.restoredIds (run.restoredNodes.foldl (P.applyRestoredEntry W) s) :=
  foldl_applyRestoredEntry hs.consistent hrun.nodup (by simp [hs.completed])
    fun entry hentry => (hrun.plans entry hentry).imp' W.caches fun _ hplan => hplan

lemma prepareCacheFrontier_spec {result : Except Raised Unit}
    (hsort : P.task.sorted = .ok s.executionOrder)
    (hs : Unstarted s) (h : P.prepareCacheFrontier W s = (s', result)) :
    (∃ ids : List String, ids.Nodup ∧ Restores s ids s') ∧ (result = .ok () → Planned P s') := by
  rw [Processor.prepareCacheFrontier] at h
  split at h
  · cases h
    have he : s.effectiveExecutionOrder = s.executionOrder := by
      rw [State.effectiveExecutionOrder, hs.planned, Option.getD_none]
    refine ⟨⟨[], nodup_nil, ⟨rfl, by simp, rfl, rfl, rfl, rfl, by simp, rfl, rfl, rfl⟩⟩,
      fun _ => ⟨hs.consistent, ?_, ?_⟩⟩
    · rw [he]
      exact sublist_fullOrder hsort
    · rw [he]
      exact heeds_of_closed (sublist_fullOrder hsort) (fun _ hn => hn)
        fun n hn m hm => .inl (order_closed hsort hn hm)
  · split at h
    · next calls message hfai =>
      cases h
      have hrun : Restoring P.registry W.caches P.task
          ((Run.start P.registry P.task).prepare P.registry W.caches calls) :=
        restoring_prepare calls (restoring_start P.registry W.caches P.task)
      exact ⟨⟨_, hrun.nodup, (foldl_restoredNodes hs hrun).2⟩, fun hok => by cases hok⟩
    · have hrun := restoring_prepareCacheFrontier P.registry W.caches P.task
      obtain ⟨hc, hr⟩ := foldl_restoredNodes (W := W) hs hrun
      dsimp only at h
      split at h
      · cases h
        exact ⟨⟨_, hrun.nodup, hr⟩, fun hok => by cases hok⟩
      · next hsta =>
        cases h
        refine ⟨⟨_, hrun.nodup, { hr with }⟩, fun _ => ?_⟩
        rcases closedPlan_of_sorted W.caches hsort rfl with ⟨hf, _⟩ | ⟨_, hplan⟩
        · exact absurd hf hsta
        · have hsub := hplan.sublist.trans (sublist_fullOrder hsort)
          refine ⟨?_, hsub, heeds_of_closed hsub (fun n hn => ?_) hplan.inputs⟩
          · exact { hc with }
          · exact (hr.completed n).mpr (.inr hn)

lemma prepassOrder_spec (hp : Planned P s)
    (h : P.prepareMetadataVariablePrepassOrder s = .ok order) :
    order.Nodup ∧ order ⊆ s.effectiveExecutionOrder ∧ P.Heeds s order := by
  rw [Processor.prepareMetadataVariablePrepassOrder] at h
  split at h
  · cases h
  · split at h
    · cases h
      refine ⟨nodup_nil, nil_subset _, ?_⟩
      intro before n after hs
      exact absurd hs (by simp)
    · split at h
      · cases h
      · next sorted hsort =>
        cases h
        have hsub : (sorted.filter (· ∈ s.effectiveExecutionOrder)).Sublist
            (fullOrder P.task.pipeline) := filter_sublist.trans (sublist_fullOrder hsort)
        refine ⟨hsub.nodup (nodup_fullOrder _), fun n hn => ?_, ?_⟩
        · exact of_decide_eq_true (mem_filter.mp hn).2
        · refine heeds_of_closed hsub (fun _ hn => hn) fun n hn m hf => ?_
          obtain ⟨hsor, he⟩ := mem_filter.mp hn
          obtain ⟨before, after, hs⟩ := append_of_mem (of_decide_eq_true he)
          refine (hp.heeds before n after hs m hf).imp_left fun hm => ?_
          obtain ⟨-, hspec⟩ := topologicalSort_spec hsort
          refine mem_filter.mpr ⟨(hspec m).mpr ⟨hf.1, ((hspec n).mp hsor).2.imp_right ?_⟩,
            decide_eq_true (hs ▸ mem_append_left _ hm)⟩
          rintro ⟨t, ht, hup⟩
          exact ⟨t, ht, .head hf hup⟩

end

end Dvt.Execution
