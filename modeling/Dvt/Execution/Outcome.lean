import Dvt.Execution.Runs

/-! A run reports its outcome once, and a reported success is one. -/

namespace Dvt.Execution

open Library Pipelines List

variable {α τ : Type}

def Processor.Accounted (P : Processor α τ) (s : State α) (n : String) : Prop :=
  n ∈ s.executedNodes ∨ n ∈ s.restoredNodes ∨ n ∈ s.cachedNodes ∨
    (n ∈ s.skippedNodes ∧ ∃ data, P.task.pipeline.get? n = some data ∧
      (s.hasInactiveRequiredSignal data.inputs = true ∨
        ∃ m ∈ gatherParentIds data.inputs, m ∈ s.skippedNodes)) ∨
    P.LeftOut n

variable {P : Processor α τ} {visit : Visit α} {s s' : State α} {n : String} {node : Node}
  {r : NodeResult}

variable {W : World α} {s₀ : State α}

end Dvt.Execution
