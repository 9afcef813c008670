import Dvt.Library.Table
import Dvt.Pipelines.Project

/-! The graph operations of the gateway: what they write, and which nodes they mark dirty. -/

namespace Dvt.Pipelines

open Library

abbrev InputValues := Dict String (Option NodeRuntimeInputValue)

structure StoredEdge extends GraphEdgeRecord where
  uiId : String
  deriving DecidableEq

def graphNodeSchema : Schema GraphNodeRecord := .unique GraphNodeRecord.uiId

def graphEdgeSchema : Schema StoredEdge := .unique StoredEdge.uiId

structure StoredGraph where
  nodes : Table graphNodeSchema
  edges : Table graphEdgeSchema

/-- A field of a partial schema: unset, `null`, or a value. -/
abbrev Field (α : Type) := Option (Option α)

def coalesce {α : Type} (patch : Field α) (stored : α) : α := patch.join.getD stored

structure GraphNodeUI where
  id : String
  type : String
  name : String
  inputValues : InputValues := .empty
  storeEnabled : Option Bool := some false

structure GraphNodeDataUpdate where
  name : Field String := none
  inputValues : Field InputValues := none
  storeEnabled : Field Bool := none

structure GraphNodeUIUpdate where
  id : String
  type : Field String := none
  data : Option GraphNodeDataUpdate := none

structure GraphEdgeUIUpdate where
  id : Option String := none
  type : Field String := none
  source : Field String := none
  sourceHandle : Field String := none
  target : Field String := none
  targetHandle : Field String := none

structure GraphOperationsAggregated where
  nodesToDelete : List String := []
  nodesToCreate : List GraphNodeUI := []
  nodesToUpdate : List GraphNodeUIUpdate := []
  edgesToDelete : List String := []
  edgesToCreate : List StoredEdge := []
  edgesToUpdate : List GraphEdgeUIUpdate := []

section

def GraphNodeUI.toPersistent (node : GraphNodeUI) : GraphNodeRecord where
  uiId := node.id
  type := node.type
  name := node.name
  inputValues := node.inputValues
  storeEnabled := node.storeEnabled.getD false

def nonEmptyInputs (inputValues : Field InputValues) : Field InputValues :=
  inputValues.map fun value => value.filter fun values => values.entries ≠ []

def patchNode (patch : GraphNodeUIUpdate) (row : GraphNodeRecord) : GraphNodeRecord :=
  let data := patch.data.getD {}
  { row with
    type := coalesce patch.type row.type
    name := coalesce data.name row.name
    inputValues := coalesce (nonEmptyInputs data.inputValues) row.inputValues
    storeEnabled := coalesce data.storeEnabled row.storeEnabled }

def patchEdge (patch : GraphEdgeUIUpdate) (row : StoredEdge) : StoredEdge :=
  { row with
    source := coalesce patch.source row.source
    sourceHandle := patch.sourceHandle.join.or row.sourceHandle
    target := coalesce patch.target row.target
    targetHandle := patch.targetHandle.join.or row.targetHandle }

/-- `UPDATE … FROM (VALUES …)`: of several matching patches any one is used. -/
def chosen {α : Type} (choice : ℕ) (patches : List α) : Option α := patches[choice % patches.length]?

variable (choice : String → ℕ) (payload : GraphOperationsAggregated)

def nodePatch (row : GraphNodeRecord) : Option GraphNodeUIUpdate :=
  chosen (choice row.uiId) (payload.nodesToUpdate.filter fun patch => patch.id = row.uiId)

def edgePatch (row : StoredEdge) : Option GraphEdgeUIUpdate :=
  chosen (choice row.uiId) (payload.edgesToUpdate.filter fun patch => patch.id = some row.uiId)

def updateNode (row : GraphNodeRecord) : GraphNodeRecord :=
  (nodePatch choice payload row).elim row fun patch => patchNode patch row

def updateEdge (row : StoredEdge) : StoredEdge :=
  (edgePatch choice payload row).elim row fun patch => patchEdge patch row

lemma uiId_updateNode (row : GraphNodeRecord) : (updateNode choice payload row).uiId = row.uiId := by
  rw [updateNode]
  cases nodePatch choice payload row <;> rfl

lemma uiId_updateEdge (row : StoredEdge) : (updateEdge choice payload row).uiId = row.uiId := by
  rw [updateEdge]
  cases edgePatch choice payload row <;> rfl

end

structure ProcessedRows where
  nodesDeleted : List String
  nodesCreated : List String
  nodesUpdated : List String
  edgesDeleted : List String
  edgesCreated : List String
  edgesUpdated : List String

section

variable (choice : String → ℕ) (graph : StoredGraph) (payload : GraphOperationsAggregated)

def applyGraphOperations : Option (StoredGraph × ProcessedRows) := do
  let remaining := graph.nodes.delete fun row => row.uiId ∈ payload.nodesToDelete
  let nodes ← remaining.insertAll (payload.nodesToCreate.map GraphNodeUI.toPersistent)
  let remainingEdges := graph.edges.delete fun row => row.uiId ∈ payload.edgesToDelete
  let edges ← remainingEdges.insertAll payload.edgesToCreate
  return (
    { nodes := nodes.update (fun _ => true) (updateNode choice payload)
        fun row => uiId_updateNode choice payload row
      edges := edges.update (fun _ => true) (updateEdge choice payload)
        fun row => uiId_updateEdge choice payload row },
    { nodesDeleted :=
        (graph.nodes.select fun row => row.uiId ∈ payload.nodesToDelete).map GraphNodeRecord.uiId
      nodesCreated := payload.nodesToCreate.map GraphNodeUI.id
      nodesUpdated := (nodes.select fun row => (nodePatch choice payload row).isSome).map
        GraphNodeRecord.uiId
      edgesDeleted :=
        (graph.edges.select fun row => row.uiId ∈ payload.edgesToDelete).map StoredEdge.uiId
      edgesCreated := payload.edgesToCreate.map StoredEdge.uiId
      edgesUpdated := (edges.select fun row => (edgePatch choice payload row).isSome).map
        StoredEdge.uiId })

def isSubgraphOnlyEdgePatch (patch : GraphEdgeUIUpdate) : Bool :=
  patch.type.isNone && patch.source.isNone && patch.sourceHandle.isNone && patch.target.isNone &&
    patch.targetHandle.isNone

def nodePatchUpdatesInputValues (patch : GraphNodeUIUpdate) : Bool :=
  (patch.data.getD {}).inputValues.isSome

def nodePatchUpdatesComputation (patch : GraphNodeUIUpdate) : Bool :=
  let data := patch.data.getD {}
  data.name.isSome || data.inputValues.isSome || data.storeEnabled.isSome

def collectMetadataSeedNodeIds : List String :=
  ((payload.nodesToUpdate.filter nodePatchUpdatesInputValues).map GraphNodeUIUpdate.id ++
    payload.edgesToCreate.map fun edge => edge.target).dedup

def edgePatchSeeds (patch : GraphEdgeUIUpdate) : List String :=
  if isSubgraphOnlyEdgePatch patch then []
  else
    ((graph.edges.rows.filter fun edge => patch.id = some edge.uiId).map fun edge => edge.target) ++
      (patch.target.join.filter (· ≠ "")).toList

def collectComputationalSeedNodeIds : List String :=
  let seeds := collectMetadataSeedNodeIds payload ++ payload.nodesToCreate.map GraphNodeUI.id ++
    (payload.nodesToUpdate.filter nodePatchUpdatesComputation).map GraphNodeUIUpdate.id ++
    ((graph.edges.rows.filter fun edge => edge.source ∈ payload.nodesToDelete).map
      fun edge => edge.target) ++
    ((graph.edges.rows.filter fun edge => edge.uiId ∈ payload.edgesToDelete).map
      fun edge => edge.target) ++
    payload.edgesToUpdate.flatMap (edgePatchSeeds graph)
  sortedSet (seeds.filter (· ∉ payload.nodesToDelete))

def hasRequestedComputationalChanges : Bool :=
  !payload.nodesToCreate.isEmpty || !payload.nodesToDelete.isEmpty ||
    !payload.edgesToCreate.isEmpty || !payload.edgesToDelete.isEmpty ||
    payload.edgesToUpdate.any (fun patch => !isSubgraphOnlyEdgePatch patch) ||
    payload.nodesToUpdate.any nodePatchUpdatesComputation

def hasProcessedGraphChanges (rows : ProcessedRows) (subgraphsChanged : Bool) : Bool :=
  !rows.nodesDeleted.isEmpty || !rows.nodesCreated.isEmpty || !rows.nodesUpdated.isEmpty ||
    !rows.edgesDeleted.isEmpty || !rows.edgesCreated.isEmpty || !rows.edgesUpdated.isEmpty ||
    subgraphsChanged

def markedSeeds (rows : ProcessedRows) (subgraphsChanged : Bool) : List String :=
  if hasProcessedGraphChanges rows subgraphsChanged && hasRequestedComputationalChanges payload then
    (collectComputationalSeedNodeIds graph payload).filter (· ≠ "")
  else []

end

end Dvt.Pipelines
