import Dvt.Execution.Steps

/-! What holds between two visits: which nodes are settled, and what they left. -/

namespace Dvt.Execution

open Library Pipelines List Dict Processor
open Inputs (Value)

variable {n : String} {node : Node} {result : Except Raised NodeResult} {r : NodeResult}
variable {α τ : Type} {ids : List String}

lemma mem_appendOnce {m : String} : m ∈ appendOnce ids n ↔ m ∈ ids ∨ m = n := by
  rw [appendOnce]
  split
  · next hmem =>
    refine ⟨.inl, ?_⟩
    rintro (hm | rfl)
    · exact hm
    · exact hmem
  · simp

lemma nodup_appendOnce (h : ids.Nodup) : (appendOnce ids n).Nodup := by
  rw [appendOnce]
  split
  · exact h
  · next hmem =>
    rw [← concat_eq_append]
    exact h.concat hmem

lemma subset_appendOnce (ids : List String) (n : String) : ids ⊆ appendOnce ids n :=
  fun _ hm => mem_appendOnce.mpr (.inl hm)

variable {inputs : Dict String NodeRuntimeInputValue} {link : NodeInputLinkValue}

lemma mem_gatherParentIds_of_entry {value : NodeRuntimeInputValue}
    (hvalue : value ∈ inputs.values) (hl : link ∈ iterNodeInputLinkValues value) :
    link.nodeId ∈ gatherParentIds inputs := by
  rw [gatherParentIds, mem_dedup]
  exact mem_map.mpr ⟨link, mem_flatMap.mpr ⟨value, hvalue, hl⟩, rfl⟩

lemma mem_inputLinks {link : String × NodeInputLinkValue} : link ∈ inputLinks inputs ↔
      ∃ value, inputs.get? link.1 = some value ∧ link.2 ∈ iterNodeInputLinkValues value := by
  rw [inputLinks, mem_flatMap]
  constructor
  · rintro ⟨entry, hentry, hlink⟩
    obtain ⟨l, hl, rfl⟩ := mem_map.mp hlink
    exact ⟨entry.2, get?_eq_some.mpr hentry, hl⟩
  · rintro ⟨value, hvalue, hlink⟩
    exact ⟨(link.1, value), get?_eq_some.mp hvalue, mem_map.mpr ⟨link.2, hlink, rfl⟩⟩

lemma source_mem_gatherParentIds {link : String × NodeInputLinkValue}
    (h : link ∈ inputLinks inputs) : link.2.nodeId ∈ gatherParentIds inputs := by
  obtain ⟨value, hvalue, hl⟩ := mem_inputLinks.mp h
  exact mem_gatherParentIds_of_entry (mem_values.mpr ⟨_, hvalue⟩) hl

lemma signal_mem_gatherParentIds (h : link ∈ iterSignalLinks inputs) :
    link.nodeId ∈ gatherParentIds inputs := by
  rw [iterSignalLinks] at h
  cases hvalue : inputs.get? "signal_in" with
  | none =>
    rw [hvalue] at h
    exact absurd h not_mem_nil
  | some value =>
    rw [hvalue] at h
    exact mem_gatherParentIds_of_entry (mem_values.mpr ⟨_, hvalue⟩) h

lemma shouldSkip_mono {s s' : State α}
    (hsub : s.recoverableFailedNodeIds ⊆ s'.recoverableFailedNodeIds)
    (h : s.shouldSkipDueToRecoverableParentFailure inputs = true) :
    s'.shouldSkipDueToRecoverableParentFailure inputs = true := by
  simp only [State.shouldSkipDueToRecoverableParentFailure, any_eq_true, mem_filter,
    decide_eq_true_eq] at h ⊢
  obtain ⟨source, ⟨hs, hf⟩, hwhy⟩ := h
  refine ⟨source, ⟨hs, hsub hf⟩, ?_⟩
  have hsame : ((inputLinks inputs).filter fun link =>
        decide (link.2.nodeId ∈ s'.recoverableFailedNodeIds)).filter
          (fun link => decide (link.2.nodeId = source.2.nodeId)) =
      ((inputLinks inputs).filter fun link =>
        decide (link.2.nodeId ∈ s.recoverableFailedNodeIds)).filter
          (fun link => decide (link.2.nodeId = source.2.nodeId)) := by
    rw [filter_filter, filter_filter]
    refine filter_congr fun link _ => ?_
    by_cases he : link.2.nodeId = source.2.nodeId
    · simp [he, hf, hsub hf]
    · simp [he]
  rw [hsame]
  exact hwhy

section

variable (P : Processor α τ)

def Processor.Idle (n : String) : Prop := n ∉ P.task.pipeline.keys ∨ P.LeftOut n

def Processor.Settled (s : State α) (n : String) : Prop :=
  n ∈ s.completedNodeIds ∨ n ∈ s.skippedNodes ∨ P.Idle n

def Processor.Ready (s : State α) (n : String) : Prop :=
  ∀ data, P.task.pipeline.get? n = some data → ∀ m ∈ gatherParentIds data.inputs, P.Settled s m

def Processor.HeldBack (s : State α) (n : String) : Prop :=
  ∃ data, P.task.pipeline.get? n = some data ∧
    ((∃ m ∈ gatherParentIds data.inputs, m ∈ s.skippedNodes) ∨
      s.shouldSkipDueToRecoverableParentFailure data.inputs = true ∨
      ∃ link ∈ iterSignalLinks data.inputs, s.nodeSignalStates link.nodeId link.outputName = false ∧
        (link.nodeId ∈ s.completedNodeIds ∨ P.Idle link.nodeId))

structure Consistent (s : State α) : Prop where
  outputs : ∀ n ∈ s.completedNodeIds, ∃ data nodeClass, P.task.pipeline.get? n = some data ∧
    P.registry.get data.name = some nodeClass ∧ P.shouldSkipOutputNode nodeClass = false ∧
    ∀ name, (s.nodesOutputs n name).isSome ↔ name ∈ nodeClass.outputNames
  silent : ∀ n, n ∉ s.completedNodeIds → ∀ name,
    s.nodesOutputs n name = none ∧ s.nodeSignalStates n name = false
  origin : ∀ n ∈ s.completedNodeIds, n ∈ s.executedNodes ∨ n ∈ s.restoredNodes ∨
    n ∈ s.cachedNodes ∨ n ∈ s.recoverableFailedNodeIds
  recoverable : ∀ n ∈ s.recoverableFailedNodeIds, n ∈ s.failedNodes
  executed : ∀ n ∈ s.executedNodes, n ∈ s.completedNodeIds
  skipped : ∀ n ∈ s.skippedNodes, n ∈ s.failedNodes ∨ P.HeldBack s n

variable {P} {s s' : State α}

lemma Processor.not_idle {data : NodeData} {nodeClass : NodeClass}
    (hdata : P.task.pipeline.get? n = some data) (hclass : P.registry.get data.name = some nodeClass)
    (hpolicy : P.shouldSkipOutputNode nodeClass = false) : ¬ P.Idle n := by
  rintro (hkey | ⟨data', nodeClass', hdata', hclass', hpolicy'⟩)
  · exact hkey (mem_keys.mpr ⟨_, hdata⟩)
  · cases hdata.symm.trans hdata'
    cases hclass.symm.trans hclass'
    exact absurd hpolicy' (by rw [hpolicy]; decide)

lemma Started.not_idle (h : Started P s node) : ¬ P.Idle node.id :=
  P.not_idle h.data h.known h.policy

lemma Consistent.not_idle (h : Consistent P s) (hn : n ∈ s.completedNodeIds) : ¬ P.Idle n := by
  obtain ⟨data, nodeClass, hdata, hclass, hpolicy, -⟩ := h.outputs n hn
  exact P.not_idle hdata hclass hpolicy

lemma Started.not_heldBack (h : Started P s node) : ¬ P.HeldBack s node.id := by
  rintro ⟨data, hdata, hwhy⟩
  cases h.data.symm.trans hdata
  rcases hwhy with ⟨m, hm, hski⟩ | hr | ⟨link, hl, hsta, _⟩
  · exact h.parents m hm hski
  · exact absurd hr (by rw [h.recoverable]; decide)
  · have hs := h.signals
    simp only [State.hasInactiveRequiredSignal, any_eq_false, Bool.not_eq_true'] at hs
    exact absurd hsta (hs link hl)

end

section

variable (P : Processor α τ)

structure Grows (s s' : State α) : Prop where
  order : s'.effectiveExecutionOrder = s.effectiveExecutionOrder
  completed : s.completedNodeIds ⊆ s'.completedNodeIds
  recoverable : s.recoverableFailedNodeIds ⊆ s'.recoverableFailedNodeIds
  failed : s.failedNodes ⊆ s'.failedNodes
  skipped : s.skippedNodes ⊆ s'.skippedNodes
  restored : s.restoredNodes ⊆ s'.restoredNodes
  taskCalls : s'.taskCalls = s.taskCalls
  signals : ∀ m, m ∈ s.completedNodeIds ∨ P.Idle m → s'.nodeSignalStates m = s.nodeSignalStates m

structure Keeps (s s' : State α) : Prop where
  completed : s'.completedNodeIds = s.completedNodeIds
  outputs : s'.nodesOutputs = s.nodesOutputs
  signals : s'.nodeSignalStates = s.nodeSignalStates
  executed : s'.executedNodes = s.executedNodes
  restored : s'.restoredNodes = s.restoredNodes
  cached : s'.cachedNodes = s.cachedNodes
  recoverable : s'.recoverableFailedNodeIds = s.recoverableFailedNodeIds

structure Completes (s : State α) (node : Node) (s' : State α) : Prop where
  completed : s'.completedNodeIds = node.id :: s.completedNodeIds
  skipped : s'.skippedNodes = s.skippedNodes
  outputs : ∀ name, (s'.nodesOutputs node.id name).isSome ↔ name ∈ node.nodeClass.outputNames
  others : ∀ m, m ≠ node.id →
    s'.nodesOutputs m = s.nodesOutputs m ∧ s'.nodeSignalStates m = s.nodeSignalStates m
  executed : ∀ m, m ∈ s'.executedNodes → m ∈ s.executedNodes ∨ m = node.id
  origin : ∀ m, m = node.id ∨ m ∈ s.executedNodes ∨ m ∈ s.restoredNodes ∨ m ∈ s.cachedNodes ∨
    m ∈ s.recoverableFailedNodeIds → m ∈ s'.executedNodes ∨ m ∈ s'.restoredNodes ∨
      m ∈ s'.cachedNodes ∨ m ∈ s'.recoverableFailedNodeIds
  recoverable : ∀ m ∈ s'.recoverableFailedNodeIds,
    m ∈ s.recoverableFailedNodeIds ∨ m ∈ s'.failedNodes

variable {P} {visit : Visit α} {s s' : State α}

lemma Grows.trans {s₁ : State α} (h : Grows P s s₁) (h' : Grows P s₁ s') : Grows P s s' where
  order := h'.order.trans h.order
  completed := List.Subset.trans h.completed h'.completed
  recoverable := List.Subset.trans h.recoverable h'.recoverable
  failed := List.Subset.trans h.failed h'.failed
  skipped := List.Subset.trans h.skipped h'.skipped
  restored := List.Subset.trans h.restored h'.restored
  taskCalls := h'.taskCalls.trans h.taskCalls
  signals m hm := (h'.signals m (hm.imp_left fun hc => h.completed hc)).trans (h.signals m hm)

section

variable (s)

lemma Grows.refl : Grows P s s :=
  ⟨rfl, List.Subset.refl _, List.Subset.refl _, List.Subset.refl _, List.Subset.refl _,
    List.Subset.refl _, rfl, fun _ _ => rfl⟩

lemma grows_buildsKwargs (n : String) : Grows P s (s.buildsKwargs n) :=
  { Grows.refl s with }

lemma grows_notifyError (n message : String) : Grows P s (s.notifyError n message) :=
  { Grows.refl s with }

lemma grows_notifyMetadata (n : String) (notified : Bool) :
    Grows P s (s.notifyMetadata n notified) :=
  { Grows.refl s with }

lemma grows_skip (n : String) : Grows P s (s.skip n) :=
  { Grows.refl s with skipped := subset_appendOnce _ _ }

lemma grows_fail (n : String) : Grows P s (s.fail n) :=
  { Grows.refl s with failed := subset_appendOnce _ _ }

lemma grows_recover (n : String) : Grows P s (s.recover n) :=
  { Grows.refl s with completed := subset_cons_self _ _, recoverable := subset_cons_self _ _ }

lemma grows_finish (n : String) : Grows P s (s.finish n) :=
  { Grows.refl s with completed := subset_cons_self _ _ }

end

variable {names : List String}

lemma grows_storeOutputs {definition : NodeDefinition α τ}
    {outputs : String → Option (Value α)} (hfresh : n ∉ s.completedNodeIds) (hi : ¬ P.Idle n) :
    Grows P s (P.storeOutputs s n definition names outputs) := by
  refine { Grows.refl (P := P) s with signals := fun m hm => ?_ }
  have hne : m ≠ n := by
    rintro rfl
    exact hm.elim hfresh hi
  exact Function.update_of_ne hne _ _

lemma grows_restoreEntry {cached : MetadataCacheEntry α} (hfresh : node.id ∉ s.completedNodeIds)
    (hi : ¬ P.Idle node.id) : Grows P s (P.restoreEntry s node cached) :=
  (grows_storeOutputs hfresh hi).trans
    ⟨rfl, subset_cons_self _ _, List.Subset.refl _, List.Subset.refl _, List.Subset.refl _,
      List.Subset.refl _, rfl, fun _ _ => rfl⟩

lemma Attempt.grows (hstarted : Started P s node) (h : Attempt P visit s node s' result) :
    Grows P s s' := by
  have hl : Grows P s (s.launch node.id) := { Grows.refl s with }
  have hk := grows_buildsKwargs (P := P) s node.id
  cases h with
  | unprepared => exact Grows.refl s
  | raised => exact hk
  | restoredEarly cached => exact grows_restoreEntry hstarted.fresh hstarted.not_idle
  | announced cached notified _ =>
    exact ((grows_restoreEntry hstarted.fresh hstarted.not_idle).trans
      (grows_buildsKwargs _ _)).trans (grows_notifyMetadata _ _ _)
  | restored cached notified =>
    exact (hk.trans (grows_restoreEntry hstarted.fresh hstarted.not_idle)).trans
      (grows_notifyMetadata _ _ _)
  | invalid reported message _ =>
    exact ((hk.trans (grows_notifyError _ _ _)).trans (grows_skip _ _)).trans (grows_fail _ _)
  | cancelled _ => exact hl
  | recovered outputs message _ _ _ =>
    exact (((hl.trans (grows_notifyError _ _ _)).trans
      (grows_storeOutputs hstarted.fresh hstarted.not_idle)).trans (grows_fail _ _)).trans
        (grows_recover _ _)
  | failed message _ _ _ _ =>
    exact ((hl.trans (grows_notifyError _ _ _)).trans (grows_fail _ _)).trans (grows_skip _ _)
  | broke message _ _ _ => exact (hl.trans (grows_notifyError _ _ _)).trans (grows_fail _ _)
  | unfinished outputs notified _ =>
    exact (hl.trans (grows_storeOutputs hstarted.fresh hstarted.not_idle)).trans
      (grows_notifyMetadata _ _ _)
  | executed outputs notified _ _ =>
    exact ((hl.trans (grows_storeOutputs hstarted.fresh hstarted.not_idle)).trans
      (grows_notifyMetadata _ _ _)).trans (grows_finish _ _)

lemma NodeStep.grows (h : NodeStep P visit s n s' result) : Grows P s s' := by
  cases h with
  | completed _ | unknown => exact Grows.refl s
  | hindered _ _ _ => exact grows_skip s n
  | leftOut _ => exact Grows.refl s
  | attempted _ hstarted hattempt => exact hattempt.grows hstarted

lemma completes_restoreEntry (s : State α) (node : Node) (cached : MetadataCacheEntry α) :
    Completes s node (P.restoreEntry s node cached) where
  completed := rfl
  skipped := rfl
  outputs name := by
    simp only [restoreEntry, storeOutputs, Function.update_self]
    split <;> simp [*]
  others m hm := ⟨Function.update_of_ne hm _ _, Function.update_of_ne hm _ _⟩
  executed _ hm := .inl hm
  origin m hm := by
    rcases hm with rfl | hm | hm | hm | hm
    · exact .inr (.inr (.inl mem_cons_self))
    · exact .inl hm
    · exact .inr (.inl hm)
    · exact .inr (.inr (.inl (mem_cons_of_mem _ hm)))
    · exact .inr (.inr (.inr hm))
  recoverable _ hm := .inl hm

lemma isSome_update {outputs : Inputs.NodeOutputs α}
    {value : String → Value α} (hs : ∀ name, outputs n name = none) (name : String) :
    (Function.update outputs n (fun name => if name ∈ names then some (value name)
      else outputs n name) n name).isSome ↔ name ∈ names := by
  rw [Function.update_self]
  split <;> simp [*]

lemma Attempt.cases_ok (h : Attempt P visit s node s' (.ok r))
    (hs : ∀ name, s.nodesOutputs node.id name = none) :
    Completes s node s' ∨ Keeps s s' ∧
      (∀ m ∈ s'.skippedNodes, m ∈ s.skippedNodes ∨ m ∈ s'.failedNodes) ∧
      (r.stopRequested = false → r.shouldBreak = false → node.id ∈ s'.skippedNodes) := by
  have hadd : ∀ ids failed : List String, ∀ m ∈ appendOnce ids node.id,
      m ∈ ids ∨ m ∈ appendOnce failed node.id := by
    intro ids failed m hm
    exact (mem_appendOnce.mp hm).imp_right fun he => mem_appendOnce.mpr (.inr he)
  have hmem : ∀ ids : List String, node.id ∈ appendOnce ids node.id :=
    fun ids => mem_appendOnce.mpr (.inr rfl)
  generalize hresult : (Except.ok r : Except Raised NodeResult) = result at h
  cases h with
  | unprepared | raised => cases hresult
  | restoredEarly cached => exact .inl (completes_restoreEntry s node cached)
  | announced cached notified _ =>
    have h := completes_restoreEntry (P := P) s node cached
    exact .inl ⟨h.1, h.2, h.3, h.4, h.5, h.6, h.7⟩
  | restored cached notified =>
    have h := completes_restoreEntry (P := P) (s.buildsKwargs node.id) node cached
    exact .inl ⟨h.1, h.2, h.3, h.4, h.5, h.6, h.7⟩
  | invalid reported message _ =>
    exact .inr ⟨⟨rfl, rfl, rfl, rfl, rfl, rfl, rfl⟩, hadd _ _, fun _ _ => hmem _⟩
  | cancelled _ =>
    cases hresult
    exact .inr ⟨⟨rfl, rfl, rfl, rfl, rfl, rfl, rfl⟩, fun _ hm => .inl hm, fun hstop => by cases hstop⟩
  | recovered outputs message _ _ _ =>
    left
    dsimp only [State.recover, State.notifyError, State.launch, State.executes]
    refine ⟨rfl, rfl, isSome_update hs,
      fun m hm => ⟨Function.update_of_ne hm _ _, Function.update_of_ne hm _ _⟩,
      fun _ hm => .inl hm, ?_, ?_⟩
    · rintro m (rfl | hm | hm | hm | hm)
      · exact .inr (.inr (.inr mem_cons_self))
      · exact .inl hm
      · exact .inr (.inl hm)
      · exact .inr (.inr (.inl hm))
      · exact .inr (.inr (.inr (mem_cons_of_mem _ hm)))
    · intro m hm
      rcases mem_cons.mp hm with rfl | hm
      · exact .inr (hmem _)
      · exact .inl hm
  | failed message _ _ _ _ =>
    dsimp only [State.skip, State.fail, State.notifyError, State.launch, State.buildsKwargs,
      State.executes]
    exact .inr ⟨⟨rfl, rfl, rfl, rfl, rfl, rfl, rfl⟩, hadd _ _, fun _ _ => hmem _⟩
  | broke message _ _ _ =>
    cases hresult
    dsimp only [State.fail, State.notifyError, State.launch]
    exact .inr ⟨⟨rfl, rfl, rfl, rfl, rfl, rfl, rfl⟩, fun _ hm => .inl hm,
      fun _ hbreak => by cases hbreak⟩
  | unfinished outputs notified _ => cases hresult
  | executed outputs notified _ _ =>
    left
    dsimp only [State.finish, storeNodeOutputs,
      storeOutputs, State.launch, State.buildsKwargs, State.executes]
    refine ⟨rfl, rfl, isSome_update hs,
      fun m hm => ⟨Function.update_of_ne hm _ _, Function.update_of_ne hm _ _⟩, ?_, ?_,
      fun _ hm => .inl hm⟩
    · intro m hm
      exact (mem_append.mp hm).imp_right mem_singleton.mp
    · rintro m (rfl | hm | hm)
      · exact .inl (mem_append_right _ mem_cons_self)
      · exact .inl (mem_append_left _ hm)
      · exact .inr hm

end

variable {P : Processor α τ} {visit : Visit α} {s s' : State α}

lemma Processor.HeldBack.mono (hg : Grows P s s') (h : P.HeldBack s n) : P.HeldBack s' n := by
  obtain ⟨data, hdata, hwhy⟩ := h
  refine ⟨data, hdata, ?_⟩
  rcases hwhy with ⟨m, hm, hs⟩ | hr | ⟨link, hl, hsta, hf⟩
  · exact .inl ⟨m, hm, hg.skipped hs⟩
  · exact .inr (.inl (shouldSkip_mono hg.recoverable hr))
  · refine .inr (.inr ⟨link, hl, ?_, hf.imp_left fun hc => hg.completed hc⟩)
    rw [hg.signals link.nodeId hf]
    exact hsta

lemma Processor.Settled.mono (hg : Grows P s s') (h : P.Settled s n) : P.Settled s' n :=
  h.imp (fun hc => hg.completed hc) fun h => h.imp_left fun hk => hg.skipped hk

lemma heldBack_of_hindered {data : NodeData} (hready : P.Ready s n)
    (hdata : P.task.pipeline.get? n = some data) (hwhy : s.Hindered data) : P.HeldBack s n := by
  refine ⟨data, hdata, ?_⟩
  rcases hwhy with hparent | hr | hs
  · exact .inl hparent
  · exact .inr (.inl hr)
  · simp only [State.hasInactiveRequiredSignal, any_eq_true, Bool.not_eq_true'] at hs
    obtain ⟨link, hl, hsta⟩ := hs
    have hmem := signal_mem_gatherParentIds hl
    rcases hready data hdata _ hmem with hdone | hski | hi
    · exact .inr (.inr ⟨link, hl, hsta, .inl hdone⟩)
    · exact .inl ⟨_, hmem, hski⟩
    · exact .inr (.inr ⟨link, hl, hsta, .inr hi⟩)

variable (h : Consistent P s)

include h

lemma Consistent.of_keeps (hg : Grows P s s') (hk : Keeps s s') (hs : ∀ m ∈ s'.skippedNodes,
      m ∈ s.skippedNodes ∨ m ∈ s'.failedNodes ∨ P.HeldBack s' m) : Consistent P s' where
  outputs := by
    rw [hk.completed, hk.outputs]
    exact h.outputs
  silent := by
    rw [hk.completed, hk.outputs, hk.signals]
    exact h.silent
  origin := by
    rw [hk.completed, hk.executed, hk.restored, hk.cached, hk.recoverable]
    exact h.origin
  recoverable := by
    rw [hk.recoverable]
    exact fun m hm => hg.failed (h.recoverable m hm)
  executed := by
    rw [hk.completed, hk.executed]
    exact h.executed
  skipped m hm := by
    rcases hs m hm with hold | hnew
    · exact (h.skipped m hold).imp (fun hf => hg.failed hf) (Processor.HeldBack.mono hg)
    · exact hnew

lemma Consistent.of_completes (node : Node) (hg : Grows P s s')
    (hdata : P.task.pipeline.get? node.id = some node.data)
    (hk : P.registry.get node.data.name = some node.nodeClass)
    (hpolicy : P.shouldSkipOutputNode node.nodeClass = false) (hdone : Completes s node s') :
    Consistent P s' where
  outputs := by
    intro m hm
    rw [hdone.completed] at hm
    by_cases he : m = node.id
    · subst he
      exact ⟨_, _, hdata, hk, hpolicy, hdone.outputs⟩
    · rw [(hdone.others m he).1]
      exact h.outputs m ((mem_cons.mp hm).resolve_left he)
  silent := by
    intro m hm name
    rw [hdone.completed, mem_cons, not_or] at hm
    rw [(hdone.others m hm.1).1, (hdone.others m hm.1).2]
    exact h.silent m hm.2 name
  origin := by
    intro m hm
    rw [hdone.completed] at hm
    exact hdone.origin m ((mem_cons.mp hm).imp_right (h.origin m))
  recoverable m hm := by
    rcases hdone.recoverable m hm with hold | hnew
    · exact hg.failed (h.recoverable m hold)
    · exact hnew
  executed m hm := by
    rw [hdone.completed]
    rcases hdone.executed m hm with hold | rfl
    · exact mem_cons_of_mem _ (h.executed m hold)
    · exact mem_cons_self
  skipped m hm := by
    rw [hdone.skipped] at hm
    exact (h.skipped m hm).imp (fun hf => hg.failed hf) (Processor.HeldBack.mono hg)

lemma NodeStep.consistent (hready : P.Ready s n) (hstep : NodeStep P visit s n s' (.ok r)) :
    Consistent P s' ∧ (r.stopRequested = false → r.shouldBreak = false → P.Settled s' n) := by
  have hg := hstep.grows
  cases hstep with
  | completed hdone => exact ⟨h, fun _ _ => .inl hdone⟩
  | hindered hfresh hdata hwhy =>
    refine ⟨h.of_keeps hg ⟨rfl, rfl, rfl, rfl, rfl, rfl, rfl⟩ ?_,
      fun _ _ => .inr (.inl (mem_appendOnce.mpr (.inr rfl)))⟩
    intro m hm
    refine (mem_appendOnce.mp hm).imp_right ?_
    rintro rfl
    exact .inr ((heldBack_of_hindered hready hdata hwhy).mono hg)
  | leftOut hpolicy => exact ⟨h, fun _ _ => .inr (.inr (.inr hpolicy))⟩
  | attempted hid hstarted hattempt =>
    subst hid
    have hsil := fun name => (h.silent _ hstarted.fresh name).1
    rcases hattempt.cases_ok hsil with hdone | ⟨hk, hs, hend⟩
    · refine ⟨h.of_completes _ hg hstarted.data hstarted.known hstarted.policy hdone,
        fun _ _ => .inl ?_⟩
      rw [hdone.completed]
      exact mem_cons_self
    · exact ⟨h.of_keeps hg hk fun m hm => (hs m hm).imp_right .inl,
        fun hstop hbreak => .inr (.inl (hend hstop hbreak))⟩

end Dvt.Execution
