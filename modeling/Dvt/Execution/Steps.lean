import Dvt.Execution.Processor

/-! Everything that one visit of a node can do. -/

namespace Dvt.Execution

open Library Pipelines Processor
open Inputs (Value)

variable {α τ : Type}

def Visit.Fails (visit : Visit α) : Prop :=
  ∃ message, visit.execute = .failed message ∨
    visit.execute = .cancelled message ∧ visit.stopAfter = false

def State.launch (s : State α) (nodeId : String) : State α := (s.buildsKwargs nodeId).executes nodeId

section

variable (P : Processor α τ) (visit : Visit α)

inductive Attempt (s : State α) (node : Node) : State α → Except Raised NodeResult → Prop
  | unprepared {raised : Raised} : Attempt s node s (.error raised)
  | raised {raised : Raised} : Attempt s node (s.buildsKwargs node.id) (.error raised)
  | restoredEarly (cached : MetadataCacheEntry α) :
      Attempt s node (P.restoreEntry s node cached) (.ok {})
  | announced (cached : MetadataCacheEntry α) (notified : Bool) {result : Except Raised NodeResult}
      (hresult : ∀ r, result = .ok r → r = {}) :
      Attempt s node (((P.restoreEntry s node cached).buildsKwargs node.id).notifyMetadata node.id
        notified) result
  | restored (cached : MetadataCacheEntry α) (notified : Bool) :
      Attempt s node ((P.restoreEntry (s.buildsKwargs node.id) node cached).notifyMetadata node.id
        notified) (.ok {})
  | invalid (reported message : String) (hvalidate : ∃ m, visit.validate = .invalid m) :
      Attempt s node ((((s.buildsKwargs node.id).notifyError node.id reported).skip node.id).fail
        node.id) (.ok { errorMessage := some message })
  | cancelled (hvalidate : visit.validate = .passed) :
      Attempt s node (s.launch node.id) (.ok { stopRequested := true })
  | recovered (outputs : String → Value α) (message : String) (hvalidate : visit.validate = .passed)
      (hfails : visit.Fails) (hgate : P.hasErrorSignalDownstream node.id = true) :
      Attempt s node (((P.storeNodeOutputs ((s.launch node.id).notifyError node.id message) node
        outputs).fail node.id).recover node.id) (.ok { errorMessage := some message })
  | failed (message : String) (hvalidate : visit.validate = .passed) (hfails : visit.Fails)
      (hgate : P.hasErrorSignalDownstream node.id = false) (hmode : P.mode = .metadataOnly) :
      Attempt s node ((((s.launch node.id).notifyError node.id message).fail node.id).skip node.id)
        (.ok { errorMessage := some message })
  | broke (message : String) (hvalidate : visit.validate = .passed) (hfails : visit.Fails)
      (hmode : P.mode = .full) :
      Attempt s node (((s.launch node.id).notifyError node.id message).fail node.id)
        (.ok { shouldBreak := true, errorMessage := some message })
  | unfinished (outputs : String → Value α) (notified : Bool) {raised : Raised}
      (hvalidate : visit.validate = .passed) :
      Attempt s node ((P.storeNodeOutputs (s.launch node.id) node outputs).notifyMetadata node.id
        notified) (.error raised)
  | executed (outputs : String → Value α) (notified : Bool) (hvalidate : visit.validate = .passed)
      (hfinished : visit.execute = .finished outputs) :
      Attempt s node (((P.storeNodeOutputs (s.launch node.id) node outputs).notifyMetadata node.id
        notified).finish node.id) (.ok { stopRequested := visit.stopAfter })

variable {P visit} {s : State α} {node : Node}

lemma attempt_announceRestored (cached : MetadataCacheEntry α) :
    Attempt P visit s node (P.announceRestored visit (P.restoreEntry s node cached) node).1
      (P.announceRestored visit (P.restoreEntry s node cached) node).2 := by
  rw [announceRestored]
  split
  · split
    · exact .announced cached false (by simp)
    · split
      · exact .announced cached false (by simp)
      · exact .announced cached true (by simp)
  · exact .restoredEarly cached

lemma attempt_failNode {message : String} (hvalidate : visit.validate = .passed)
    (hfails : visit.Fails) :
    Attempt P visit s node (P.failNode visit (s.launch node.id) node message).1
      (P.failNode visit (s.launch node.id) node message).2 := by
  rw [failNode]
  split
  · next hgate => exact .recovered _ _ hvalidate hfails hgate
  · next hgate =>
    split
    · next hmode => exact .failed _ hvalidate hfails (by simpa using hgate) hmode
    · next hmode =>
      refine .broke _ hvalidate hfails ?_
      cases hm : P.mode with
      | full => rfl
      | metadataOnly => exact absurd hm hmode

lemma attempt_executeNode (hvalidate : visit.validate = .passed) :
    Attempt P visit s node (P.executeNode visit (s.buildsKwargs node.id) node).1
      (P.executeNode visit (s.buildsKwargs node.id) node).2 := by
  rw [executeNode]
  split
  · next outputs hfinished =>
    rw [finishNode]
    split
    · exact .unfinished outputs false hvalidate
    · split
      · exact .unfinished outputs P.onNodeMetadata hvalidate
      · exact .executed outputs P.onNodeMetadata hvalidate hfinished
  · next message hf => exact attempt_failNode hvalidate ⟨message, .inl hf⟩
  · next message hc =>
    split
    · exact .cancelled hvalidate
    · next hstop =>
      exact attempt_failNode hvalidate ⟨message, .inr ⟨hc, by simpa using hstop⟩⟩

variable {s' : State α}

lemma restoreEntry_of_tryRestore {key : String}
    (h : P.tryRestoreNodeMetaCacheAndSkip visit s node key = .ok (some s')) :
    ∃ cached, s' = P.restoreEntry s node cached := by
  rw [tryRestoreNodeMetaCacheAndSkip] at h
  split at h
  · cases h
  · split at h
    · cases h
    · cases h
    · next cached hc =>
      split at h
      · cases h
        exact ⟨cached, rfl⟩
      · cases h

variable {earlyKey : Option String}

lemma attempt_restoreOrExecute {kwargs : Dict String (Value α)}
    (hvalidate : visit.validate = .passed) :
    Attempt P visit s node
      (P.restoreOrExecute visit (s.buildsKwargs node.id) node kwargs earlyKey).1
      (P.restoreOrExecute visit (s.buildsKwargs node.id) node kwargs earlyKey).2 := by
  rw [restoreOrExecute]
  split
  · exact .raised
  · split
    · exact .raised
    · dsimp only
      split
      · exact .raised
      · next s' hr =>
        split at hr
        · obtain ⟨cached, rfl⟩ := restoreEntry_of_tryRestore hr
          exact .restored cached P.onNodeMetadata
        · cases hr
      · exact attempt_executeNode hvalidate

lemma attempt_startNode : Attempt P visit s node (P.startNode visit s node earlyKey).1
      (P.startNode visit s node earlyKey).2 := by
  rw [startNode]
  split
  · exact .raised
  · split
    · exact .raised
    · split
      · exact .raised
      · next message hvalidate => exact .invalid _ _ ⟨message, hvalidate⟩
      · next hvalidate => exact attempt_restoreOrExecute hvalidate

lemma restoreEntry_of_tryRestoreBefore {key : Option String}
    (h : P.tryRestoreNodeMetaCacheBeforeInstantiation visit s node = .ok (some s', key)) :
    ∃ cached, s' = P.restoreEntry s node cached := by
  rw [tryRestoreNodeMetaCacheBeforeInstantiation] at h
  split at h
  · split at h
    · cases h
    · dsimp only at h
      split at h
      · cases h
      · next restored hr =>
        cases h
        exact restoreEntry_of_tryRestore hr
  · cases h

end

section

variable (P : Processor α τ) (visit : Visit α)

structure Started (s : State α) (node : Node) : Prop where
  fresh : node.id ∉ s.completedNodeIds
  data : P.task.pipeline.get? node.id = some node.data
  parents : ∀ m ∈ gatherParentIds node.data.inputs, m ∉ s.skippedNodes
  recoverable : s.shouldSkipDueToRecoverableParentFailure node.data.inputs = false
  known : P.registry.get node.data.name = some node.nodeClass
  policy : P.shouldSkipOutputNode node.nodeClass = false
  signals : s.hasInactiveRequiredSignal node.data.inputs = false

def State.Hindered (s : State α) (data : NodeData) : Prop :=
  (∃ m ∈ gatherParentIds data.inputs, m ∈ s.skippedNodes) ∨
    s.shouldSkipDueToRecoverableParentFailure data.inputs = true ∨
    s.hasInactiveRequiredSignal data.inputs = true

def Processor.LeftOut (n : String) : Prop :=
  ∃ data nodeClass, P.task.pipeline.get? n = some data ∧
    P.registry.get data.name = some nodeClass ∧ P.shouldSkipOutputNode nodeClass = true

inductive NodeStep (s : State α) (n : String) : State α → Except Raised NodeResult → Prop
  | completed (hdone : n ∈ s.completedNodeIds) : NodeStep s n s (.ok {})
  | unknown {raised : Raised} : NodeStep s n s (.error raised)
  | hindered {data : NodeData} (hfresh : n ∉ s.completedNodeIds)
      (hdata : P.task.pipeline.get? n = some data) (hwhy : s.Hindered data) :
      NodeStep s n (s.skip n) (.ok {})
  | leftOut (hpolicy : P.LeftOut n) : NodeStep s n s (.ok {})
  | attempted {node : Node} {s' : State α} {result : Except Raised NodeResult} (hid : node.id = n)
      (hstarted : Started P s node) (hattempt : Attempt P visit s node s' result) :
      NodeStep s n s' result

lemma nodeStep (s : State α) (n : String) :
    NodeStep P visit s n (P.processNode visit s n).1 (P.processNode visit s n).2 := by
  rw [processNode]
  split
  · next hdone => exact .completed hdone
  · next hdone =>
    split
    · exact .unknown
    · next data hdata =>
      split
      · next hp =>
        refine .hindered hdone hdata (.inl ?_)
        simpa using hp
      · next hp =>
        split
        · next hr => exact .hindered hdone hdata (.inr (.inl hr))
        · next hr =>
          split
          · exact .unknown
          · next nodeClass hclass =>
            split
            · next hpolicy => exact .leftOut ⟨data, nodeClass, hdata, hclass, hpolicy⟩
            · next hpolicy =>
              split
              · next hs => exact .hindered hdone hdata (.inr (.inr hs))
              · next hs =>
                have hstarted : Started P s ⟨n, data, nodeClass⟩ :=
                  ⟨hdone, hdata, by simpa using hp, by simpa using hr, hclass,
                    by simpa using hpolicy, by simpa using hs⟩
                refine .attempted rfl hstarted ?_
                dsimp only
                split
                · exact .unprepared
                · next restored key he =>
                  obtain ⟨cached, rfl⟩ := restoreEntry_of_tryRestoreBefore he
                  exact attempt_announceRestored cached
                · exact attempt_startNode

lemma nodeStep_of_eq {s s' : State α} {n : String} {result : Except Raised NodeResult}
    (h : P.processNode visit s n = (s', result)) : NodeStep P visit s n s' result := by
  have hstep := nodeStep P visit s n
  rw [h] at hstep
  exact hstep

end

end Dvt.Execution
