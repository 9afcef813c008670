import Dvt.Library.Runs
import Dvt.Pipelines.Processor
import Mathlib.Data.List.Sort

/-! A project with its dirty nodes, its cache and the runs over it. -/

namespace Dvt.Pipelines

open Library

structure Project where
  graph : Graph
  dirtyNodeIds : List String
  graphRevision : ℕ

def sortedSet (ids : List String) : List String := ids.dedup.insertionSort (· ≤ ·)

lemma mem_sortedSet {ids : List String} {id : String} : id ∈ sortedSet ids ↔ id ∈ ids := by
  simp [sortedSet]

def stillDirty (project : Project) (nodeIds : List String) : List String :=
  project.dirtyNodeIds.filter fun id => id = "" ∨ id ∉ nodeIds

def markProjectGraphDirty (project : Project) (nodeIds removedNodeIds : List String) : Project :=
  { project with
    dirtyNodeIds := sortedSet (stillDirty project removedNodeIds ++ nodeIds.filter (· ≠ ""))
    graphRevision := project.graphRevision + 1 }

def clearProjectGraphDirtyIfRevision (project : Project) (graphRevision : ℕ)
    (nodeIds : List String) : Project :=
  if project.graphRevision = graphRevision then
    { project with dirtyNodeIds := sortedSet (stillDirty project nodeIds) }
  else project

section

variable (reg : Registry)

def buildPendingTaskFromProject (project : Project) (targetNodes : List String)
    (executionOrder : DataFrameExecutionOrder) : Option Task :=
  let (nodes, edges) := getGraphBy project.graph targetNodes
  (buildPipelineFromGraph reg nodes edges targetNodes).map fun pipeline =>
    let changedNodeIds := sortedSet (project.dirtyNodeIds.filter (· ∈ pipeline.keys))
    { executionOrder
      pipeline
      targetNodes := resolveExecutionTargetNodes pipeline targetNodes
      changedNodeIds
      graphRevision := if changedNodeIds = [] then none else some project.graphRevision }

structure State where
  project : Project
  cache : Cache
  runs : List Run

inductive Event
  | edit (graph : Graph) (nodeIds removedNodeIds : List String)
  | build (targetNodes : List String) (executionOrder : DataFrameExecutionOrder)
  | requireNode (i : ℕ)
  | processNode (i : ℕ) (outcome : NodeOutcome)
  | activate (i : ℕ) (nodeId : String)
  | markSuccess (i : ℕ)

def clearedProject (project : Project) (run : Run) : Project :=
  if run.status = .succeeded ∧ run.task.changedNodeIds ≠ [] then
    run.task.graphRevision.elim project fun revision =>
      clearProjectGraphDirtyIfRevision project revision run.task.changedNodeIds
  else project

def State.step (σ : State) : Event → State
  | .edit graph nodeIds removedNodeIds =>
    { σ with
      project := markProjectGraphDirty { σ.project with graph } nodeIds removedNodeIds }
  | .build targetNodes executionOrder =>
    { σ with
      runs := σ.runs ++ ((buildPendingTaskFromProject reg σ.project targetNodes executionOrder).map
        (Run.start reg)).toList }
  | .requireNode i =>
    { σ with
      runs := σ.runs.modify i fun run =>
        if run.status = .preparing then run.requireNode reg σ.cache else run }
  | .processNode i outcome =>
    { σ with
      runs := σ.runs.modify i fun run =>
        if run.status = .processing then run.processNode outcome else run }
  | .activate i nodeId =>
    { σ with
      cache := (σ.runs[i]?.bind fun run => run.generation reg nodeId).elim σ.cache
        (activateIfNewer σ.cache nodeId) }
  | .markSuccess i =>
    { σ with
      project := σ.runs[i]?.elim σ.project (clearedProject σ.project)
      runs := σ.runs.modify i fun run =>
        if run.status = .succeeded then { run with status := .cleared } else run }

end

end Dvt.Pipelines
