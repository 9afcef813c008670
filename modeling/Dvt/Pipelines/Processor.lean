import Dvt.Pipelines.Order

/-! The execution of one pipeline: its frontier, its nodes and their generations. -/

namespace Dvt.Pipelines

open Library

structure DataFrameExecutionOrder where
  queuedAtUs : ℤ
  taskId : String
  deriving DecidableEq, Repr

def DataFrameExecutionOrder.newer (a b : DataFrameExecutionOrder) : Bool :=
  b.queuedAtUs < a.queuedAtUs ∨ b.queuedAtUs = a.queuedAtUs ∧ b.taskId < a.taskId

structure Generation where
  executionOrder : DataFrameExecutionOrder
  nodeName : String
  nodeRuntimeFingerprint : String
  outputNames : List String
  pipeline : Pipeline
  deriving DecidableEq

abbrev Cache := Dict String Generation

def activates (cache : Cache) (nodeId : String) (generation : Generation) : Bool :=
  (cache.get? nodeId).all fun current => generation.executionOrder.newer current.executionOrder

def activateIfNewer (cache : Cache) (nodeId : String) (generation : Generation) : Cache :=
  if activates cache nodeId generation then cache.set nodeId generation else cache

def getRestorePlan (cache : Cache) (nodeId : String) (nodeClass : NodeClass) : Option Generation :=
  (cache.get? nodeId).filter fun snapshot =>
    snapshot.nodeName = nodeClass.className ∧
      snapshot.nodeRuntimeFingerprint = nodeClass.runtimeFingerprint ∧
      snapshot.outputNames = nodeClass.outputNames

structure Task where
  executionOrder : DataFrameExecutionOrder
  pipeline : Pipeline
  targetNodes : Option (List String)
  changedNodeIds : List String
  graphRevision : Option ℕ

inductive RunStatus
  | preparing | processing | succeeded | cleared | failed
  deriving DecidableEq, Repr

/-- `requiring` are the `require_node` calls to be made. -/
structure Run where
  task : Task
  status : RunStatus
  executionOrder : List String := []
  requiring : List String := []
  visitedNodeIds : List String := []
  requiredNodeIds : List String := []
  restoredNodes : List (String × Generation) := []
  remaining : List String := []
  executedNodes : List String := []
  hadError : Bool := false

section

variable (reg : Registry)

def affectedNodeIds (task : Task) : List String :=
  findAllDependents task.pipeline task.changedNodeIds

def freshPaths (pipeline : Pipeline) : List String :=
  findAllDependents pipeline ((pipeline.entries.filter fun e =>
    (reg.get e.2.name).any NodeClass.requiresFreshExecution).map Prod.fst)

def executionTargetIds (task : Task) (order : List String) : List String :=
  let explicitTargets := (task.targetNodes.getD []).filter (· ∈ order)
  if explicitTargets ≠ [] then explicitTargets
  else
    let parentIds := (order.flatMap (upstreamOf task.pipeline)).filter (· ∈ order)
    order.filter (· ∉ parentIds)

def canRestore (task : Task) (nodeId : String) (nodeData : NodeData) (nodeClass : NodeClass) : Bool :=
  nodeId ∉ affectedNodeIds task ∧ nodeId ∉ freshPaths reg task.pipeline ∧ nodeData.storeEnabled ∧
    nodeClass.dfOutput ∧ !nodeClass.outputNode

abbrev Task.sorted (task : Task) : Except GraphError (List String) :=
  topologicalSort task.pipeline task.targetNodes

def Run.start (task : Task) : Run :=
  match task.sorted with
  | .error _ => { task, status := .failed }
  | .ok [] => { task, status := .succeeded }
  | .ok (first :: rest) =>
    let executionOrder := first :: rest
    if task.changedNodeIds = [] then
      { task, status := .processing, executionOrder, remaining := executionOrder }
    else if task.pipeline.values.any fun data => reg.get data.name = none then
      { task, status := .failed }
    else
      { task, status := .preparing, executionOrder,
        requiring := executionTargetIds task executionOrder }

def Run.requireNode (cache : Cache) (run : Run) : Run :=
  match run.requiring with
  | [] => { run with
      status := .processing
      remaining := run.executionOrder.filter (· ∈ run.requiredNodeIds) }
  | nodeId :: rest =>
    match (run.task.pipeline.get? nodeId).filter fun _ => nodeId ∉ run.visitedNodeIds with
    | none => { run with requiring := rest }
    | some nodeData =>
      let visitedNodeIds := nodeId :: run.visitedNodeIds
      match reg.get nodeData.name with
      | none => { run with status := .failed }
      | some nodeClass =>
        match (getRestorePlan cache nodeId nodeClass).filter
            fun _ => canRestore reg run.task nodeId nodeData nodeClass with
        | some generation => { run with
            requiring := rest
            visitedNodeIds
            restoredNodes := run.restoredNodes ++ [(nodeId, generation)] }
        | none => { run with
            requiring := gatherParentIds nodeData.inputs ++ rest
            visitedNodeIds
            requiredNodeIds := nodeId :: run.requiredNodeIds }

inductive NodeOutcome
  | executed | skipped | invalid | failed
  | stopped (afterNode : Bool)
  deriving DecidableEq, Repr

def Run.processNode (outcome : NodeOutcome) (run : Run) : Run :=
  match run.remaining with
  | [] => { run with status := if run.hadError then .failed else .succeeded }
  | nodeId :: rest =>
    match outcome with
    | .executed => { run with remaining := rest, executedNodes := nodeId :: run.executedNodes }
    | .skipped => { run with remaining := rest }
    | .invalid => { run with remaining := rest, hadError := true }
    | .failed => { run with status := .failed }
    | .stopped afterNode => { run with
        status := .failed
        executedNodes := if afterNode then nodeId :: run.executedNodes else run.executedNodes }

def Run.generation (run : Run) (nodeId : String) : Option Generation :=
  if nodeId ∈ run.executedNodes then
    match run.task.pipeline.get? nodeId with
    | none => none
    | some nodeData =>
      ((reg.get nodeData.name).filter fun nodeClass =>
        nodeData.storeEnabled ∧ nodeClass.dfOutput).map fun nodeClass =>
          { executionOrder := run.task.executionOrder
            nodeName := nodeClass.className
            nodeRuntimeFingerprint := nodeClass.runtimeFingerprint
            outputNames := nodeClass.outputNames
            pipeline := run.task.pipeline }
  else none

def restorePlan (cache : Cache) (task : Task) (nodeId : String) : Option Generation :=
  (task.pipeline.get? nodeId).bind fun nodeData =>
    (reg.get nodeData.name).bind fun nodeClass =>
      (getRestorePlan cache nodeId nodeClass).filter
        fun _ => canRestore reg task nodeId nodeData nodeClass

lemma restorePlan_eq_some {reg : Registry} {cache : Cache} {task : Task} {nodeId : String}
    {generation : Generation} (h : restorePlan reg cache task nodeId = some generation) :
    ∃ nodeData nodeClass, task.pipeline.get? nodeId = some nodeData ∧
      reg.get nodeData.name = some nodeClass ∧
      getRestorePlan cache nodeId nodeClass = some generation ∧
      canRestore reg task nodeId nodeData nodeClass = true := by
  obtain ⟨nodeData, hdata, h⟩ := Option.bind_eq_some_iff.mp h
  obtain ⟨nodeClass, hclass, h⟩ := Option.bind_eq_some_iff.mp h
  obtain ⟨hplan, hcan⟩ := Option.filter_eq_some_iff.mp h
  exact ⟨nodeData, nodeClass, hdata, hclass, hplan, hcan⟩

inductive RequireStep (cache : Cache) (run : Run) : Run → Prop
  | plan (hnil : run.requiring = []) : RequireStep cache run { run with
      status := .processing
      remaining := run.executionOrder.filter (· ∈ run.requiredNodeIds) }
  | skip {nodeId : String} {rest : List String} (hcons : run.requiring = nodeId :: rest)
      (hskip : nodeId ∈ run.visitedNodeIds ∨ nodeId ∉ run.task.pipeline.keys) :
      RequireStep cache run { run with requiring := rest }
  | unknown {nodeId : String} {nodeData : NodeData} (hdata : run.task.pipeline.get? nodeId = some nodeData)
      (hclass : reg.get nodeData.name = none) : RequireStep cache run { run with status := .failed }
  | restore {nodeId : String} {rest : List String} {generation : Generation}
      (hcons : run.requiring = nodeId :: rest) (hfresh : nodeId ∉ run.visitedNodeIds)
      (hkey : nodeId ∈ run.task.pipeline.keys)
      (hplan : restorePlan reg cache run.task nodeId = some generation) :
      RequireStep cache run { run with
        requiring := rest
        visitedNodeIds := nodeId :: run.visitedNodeIds
        restoredNodes := run.restoredNodes ++ [(nodeId, generation)] }
  | require {nodeId : String} {rest : List String} {nodeData : NodeData}
      (hcons : run.requiring = nodeId :: rest) (hfresh : nodeId ∉ run.visitedNodeIds)
      (hdata : run.task.pipeline.get? nodeId = some nodeData)
      (hplan : restorePlan reg cache run.task nodeId = none) :
      RequireStep cache run { run with
        requiring := gatherParentIds nodeData.inputs ++ rest
        visitedNodeIds := nodeId :: run.visitedNodeIds
        requiredNodeIds := nodeId :: run.requiredNodeIds }

lemma requireStep (cache : Cache) (run : Run) :
    RequireStep reg cache run (run.requireNode reg cache) := by
  rw [Run.requireNode]
  split
  · next hnil => exact .plan hnil
  · next nodeId rest hcons =>
    split
    · next hskip =>
      refine .skip hcons ?_
      by_contra hne
      obtain ⟨hfresh, hkey⟩ := not_or.mp hne
      obtain ⟨nodeData, hdata⟩ := Dict.mem_keys.mp (not_not.mp hkey)
      rw [hdata] at hskip
      simp [hfresh] at hskip
    · next nodeData hdata =>
      obtain ⟨hdata, hfresh⟩ := Option.filter_eq_some_iff.mp hdata
      have hfresh : nodeId ∉ run.visitedNodeIds := by simpa using hfresh
      split
      · next hclass => exact .unknown hdata hclass
      · next nodeClass hclass =>
        have hplan : restorePlan reg cache run.task nodeId =
            (getRestorePlan cache nodeId nodeClass).filter
              fun _ => canRestore reg run.task nodeId nodeData nodeClass := by
          simp only [restorePlan, hdata, hclass, Option.bind_some]
        split
        · next generation hs =>
          exact .restore hcons hfresh (Dict.mem_keys.mpr ⟨nodeData, hdata⟩) (hplan.trans hs)
        · next hn => exact .require hcons hfresh hdata (hplan.trans hn)

end

end Dvt.Pipelines
