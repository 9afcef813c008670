import Dvt.Mcp.Patching
import Mathlib.Data.String.Basic

/-! The operations that store a prepared graph, and their statements. -/

namespace Dvt.Mcp

open Library List
open Pipelines (coalesce chosen sortedSet mem_sortedSet)

structure GraphNodeUI where
  id : String
  type : String
  subgraphId : Option String
  position : Position
  name : String
  displayName : String
  comment : Option String
  inputValues : NodeInputValues
  storeEnabled : Option Bool

structure GraphNodeUIUpdate where
  id : String
  type : Pipelines.Field String := none
  subgraphId : Pipelines.Field String := none
  position : Pipelines.Field Position := none
  name : Pipelines.Field String := none
  displayName : Pipelines.Field String := none
  comment : Pipelines.Field String := none
  inputValues : Pipelines.Field NodeInputValues := none
  storeEnabled : Pipelines.Field Bool := none

structure GraphEdgeUI extends EdgeState where
  id : String

structure GraphOperationsAggregated where
  nodesToDelete : List String := []
  nodesToCreate : List GraphNodeUI := []
  nodesToUpdate : List GraphNodeUIUpdate := []
  edgesToDelete : List String := []
  edgesToCreate : List GraphEdgeUI := []
  subgraphsToUpdate : List (String × Position) := []

def nodeToUi (id : String) (node : NodeState) : Option GraphNodeUI :=
  node.position.map fun position =>
    { id, position
      type := node.uiType
      subgraphId := node.subgraphId
      name := node.nodeType
      displayName := node.displayName
      comment := node.comment
      inputValues := node.inputs
      storeEnabled := node.storeEnabled }

def GraphNodeUI.modelDump (node : GraphNodeUI) : GraphNodeUIUpdate where
  id := node.id
  type := some (some node.type)
  subgraphId := some node.subgraphId
  position := some (some node.position)
  name := some (some node.name)
  displayName := some (some node.displayName)
  comment := some node.comment
  inputValues := some (some node.inputValues)
  storeEnabled := some node.storeEnabled

def positionOperations (positions : PositionChanges) : GraphOperationsAggregated where
  nodesToUpdate := positions.nodes.sortedItems.map fun item =>
    { id := item.1, position := some (some item.2) }
  subgraphsToUpdate := positions.subgraphs.sortedItems

def presentNodes (graph : GraphState) (ids : List String) : List (String × NodeState) :=
  (sortedSet ids).filterMap fun id => (graph.nodes.get? id).map fun node => (id, node)

def uiNodes (graph : GraphState) (ids : List String) : Option (List GraphNodeUI) :=
  (presentNodes graph ids).mapM fun item => nodeToUi item.1 item.2

def nodeUpdates (changes : GraphChanges) (positions : PositionChanges) (updated : List GraphNodeUI) :
    List GraphNodeUIUpdate :=
  updated.map GraphNodeUI.modelDump ++ (positionOperations positions).nodesToUpdate.filter fun item =>
    item.id ∉ changes.createdNodeIds ++ changes.updatedNodeIds

def createdEdges (graph : GraphState) (changes : GraphChanges) : List GraphEdgeUI :=
  (graph.edges.entries.filter fun edge => edge.1 ∈ changes.createdEdgeIds).map fun edge =>
    { edge.2 with id := edge.1 }

def buildOperations (graph : GraphState) (changes : GraphChanges) (positions : PositionChanges) :
    Option GraphOperationsAggregated := do
  let nodesToCreate ← uiNodes graph changes.createdNodeIds
  let updated ← uiNodes graph changes.updatedNodeIds
  return {
    nodesToDelete := sortedSet changes.deletedNodeIds
    nodesToCreate
    nodesToUpdate := nodeUpdates changes positions updated
    edgesToDelete := sortedSet changes.deletedEdgeIds
    edgesToCreate := createdEdges graph changes
    subgraphsToUpdate := (positionOperations positions).subgraphsToUpdate }

structure Uuids where
  node : ℕ → String
  edge : ℕ → String

def permanentNodeIds (uuids : Uuids) (patch : ResolvedPatch) : Dict String String :=
  patch.nodeIdsByRef.values.zipIdx.foldl
    (fun ids entry => ids.set entry.1 ("node_" ++ uuids.node entry.2)) .empty

def permanentEdgeIds (uuids : Uuids) (edges : List GraphEdgeUI) : Dict String String :=
  edges.zipIdx.foldl (fun ids entry => ids.set entry.1.id ("edge_" ++ uuids.edge entry.2)) .empty

def renamed (permanent : Dict String String) (id : String) : String := (permanent.get? id).getD id

def materializeEdges (uuids : Uuids) (permanent : Dict String String) (edges : List GraphEdgeUI) :
    List GraphEdgeUI :=
  edges.zipIdx.map fun entry =>
    { entry.1 with
      id := "edge_" ++ uuids.edge entry.2
      source := renamed permanent entry.1.source
      target := renamed permanent entry.1.target }

def materialize (uuids : Uuids) (permanent : Dict String String)
    (payload : GraphOperationsAggregated) : Option GraphOperationsAggregated := do
  let nodesToCreate ← payload.nodesToCreate.mapM fun node =>
    (permanent.get? node.id).map fun id => { node with id }
  return { payload with
    nodesToCreate
    edgesToCreate := materializeEdges uuids permanent payload.edgesToCreate }

structure Record (β : Type) where
  uiId : String
  projectId : String
  userId : String
  organizationId : String
  columns : β

def recordSchema (β : Type) : Schema (Record β) := .unique fun row => (row.uiId, row.projectId)

structure NodeColumns where
  type : String
  position : Position
  name : String
  displayName : String
  comment : Option String := none
  inputValues : Option NodeInputValues := some .empty
  storeEnabled : Option Bool := some false
  subgraphId : Option String := none

structure ProjectRecord where
  id : String
  userId : String
  organizationId : String
  isDeleted : Bool := false
  graphRevision : ℕ := 0

structure Database where
  projects : List ProjectRecord
  nodes : Table (recordSchema NodeColumns)
  edges : Table (recordSchema EdgeState)
  subgraphs : Table (recordSchema SubgraphState)

def ProjectRecord.owns {β : Type} (project : ProjectRecord) (row : Record β) : Bool :=
  row.organizationId = project.organizationId && row.userId = project.userId &&
    row.projectId = project.id

lemma nodup_owned {β : Type} (project : ProjectRecord) (table : Table (recordSchema β)) :
    ((table.select project.owns).map Record.uiId).Nodup := by
  rw [List.Nodup, pairwise_map]
  refine (table.unique.filter project.owns).imp_of_mem fun {a b} ha hb hc hid => hc ?_
  have hp : ∀ row ∈ table.rows.filter project.owns, row.projectId = project.id := by
    intro row hrow
    have howns := (mem_filter.mp hrow).2
    rw [ProjectRecord.owns, Bool.and_eq_true] at howns
    exact of_decide_eq_true howns.2
  exact Prod.ext hid ((hp a ha).trans (hp b hb).symm)

def loadRows {β ν : Type} (project : ProjectRecord) (state : β → ν)
    (table : Table (recordSchema β)) : Dict String ν where
  entries := (table.select project.owns).map fun row => (row.uiId, state row.columns)
  nodup := by
    rw [map_map]
    exact nodup_owned project table

def nodeFromRecord (row : NodeColumns) : NodeState where
  position := some row.position
  subgraphId := row.subgraphId
  nodeType := row.name
  displayName := row.displayName
  comment := row.comment
  inputs := row.inputValues.getD .empty
  uiType := row.type
  storeEnabled := row.storeEnabled

def loadSnapshot (db : Database) (project : ProjectRecord) : GraphState where
  nodes := loadRows project nodeFromRecord db.nodes
  edges := loadRows project id db.edges
  subgraphs := loadRows project id db.subgraphs

lemma get?_loadRows {β ν : Type} {project : ProjectRecord} {state : β → ν}
    {table : Table (recordSchema β)} {k : String} {value : ν} :
    (loadRows project state table).get? k = some value ↔
      ∃ row ∈ table.rows, project.owns row = true ∧ row.uiId = k ∧ state row.columns = value := by
  rw [Dict.get?_eq_some, loadRows, mem_map]
  simp only [Table.mem_select, Prod.mk.injEq, and_assoc]

section

def unset : String := "__DVT_UNSET__"

/-- A column that is not given is the sentinel, `null` is `NULL`. -/
def typedValueNullableAware (value : Pipelines.Field String) : Option String := value.getD (some unset)

/-- `CASE WHEN v = sentinel THEN t ELSE v END` -/
def nullableExpr (value stored : Option String) : Option String :=
  if value = some unset then stored else value

def nullifEmpty (value : Option NodeInputValues) : Option NodeInputValues :=
  value.filter fun inputs => inputs.entries ≠ []

def patchColumns (patch : GraphNodeUIUpdate) (row : NodeColumns) : NodeColumns where
  type := coalesce patch.type row.type
  position := coalesce patch.position row.position
  name := coalesce patch.name row.name
  displayName := coalesce patch.displayName row.displayName
  comment := nullableExpr (typedValueNullableAware patch.comment) row.comment
  storeEnabled := patch.storeEnabled.join.or row.storeEnabled
  inputValues := (nullifEmpty patch.inputValues.join).or row.inputValues
  subgraphId := nullableExpr (typedValueNullableAware patch.subgraphId) row.subgraphId

/-- The patches that `UPDATE … FROM (VALUES …)` matches with a row; any one is used. -/
def matching (projectId userId : String) (patches : List GraphNodeUIUpdate)
    (row : Record NodeColumns) : List GraphNodeUIUpdate :=
  patches.filter fun patch =>
    patch.id = row.uiId && row.projectId = projectId && row.userId = userId

variable (choice : String → ℕ)

def updateRow (projectId userId : String) (patches : List GraphNodeUIUpdate)
    (row : Record NodeColumns) : Record NodeColumns :=
  (chosen (choice row.uiId) (matching projectId userId patches row)).elim row fun patch =>
    { row with columns := patchColumns patch row.columns }

lemma columns_updateRow (projectId userId : String) (patches : List GraphNodeUIUpdate)
    (row : Record NodeColumns) :
    (recordSchema NodeColumns).columns (updateRow choice projectId userId patches row) =
      (recordSchema NodeColumns).columns row := by
  rw [updateRow]
  cases chosen (choice row.uiId) (matching projectId userId patches row) <;> rfl

def updateGraphNodes (projectId userId : String) (patches : List GraphNodeUIUpdate)
    (table : Table (recordSchema NodeColumns)) : Table (recordSchema NodeColumns) :=
  table.update (fun _ => true) (updateRow choice projectId userId patches)
    (columns_updateRow choice projectId userId patches)

def moveSubgraph (projectId userId : String) (moves : List (String × Position))
    (row : Record SubgraphState) : Record SubgraphState :=
  (chosen (choice row.uiId) (moves.filter fun move =>
    move.1 = row.uiId && row.projectId = projectId && row.userId = userId)).elim row fun move =>
      { row with columns := { row.columns with position := move.2 } }

lemma columns_moveSubgraph (projectId userId : String) (moves : List (String × Position))
    (row : Record SubgraphState) :
    (recordSchema SubgraphState).columns (moveSubgraph choice projectId userId moves row) =
      (recordSchema SubgraphState).columns row := by
  rw [moveSubgraph]
  cases chosen (choice row.uiId) (moves.filter fun move =>
    move.1 = row.uiId && row.projectId = projectId && row.userId = userId) <;> rfl

def newRecord {β : Type} (project : ProjectRecord) (userId uiId : String) (columns : β) :
    Record β where
  uiId
  projectId := project.id
  userId
  organizationId := project.organizationId
  columns

def GraphNodeUI.columns (node : GraphNodeUI) : NodeColumns where
  type := node.type
  position := node.position
  name := node.name
  displayName := node.displayName
  comment := node.comment
  inputValues := some node.inputValues
  storeEnabled := node.storeEnabled
  subgraphId := node.subgraphId

def deleteBy {β : Type} (project : ProjectRecord) (ids : List String)
    (table : Table (recordSchema β)) : Table (recordSchema β) :=
  table.delete fun row => row.projectId = project.id && row.uiId ∈ ids

def runOperations (db : Database) (project : ProjectRecord) (userId : String)
    (payload : GraphOperationsAggregated) : Option Database := do
  let nodes ← (deleteBy project payload.nodesToDelete db.nodes).insertAll
    (payload.nodesToCreate.map fun node => newRecord project userId node.id node.columns)
  let edges ← (deleteBy project payload.edgesToDelete db.edges).insertAll
    (payload.edgesToCreate.map fun edge => newRecord project userId edge.id edge.toEdgeState)
  return { db with
    nodes := updateGraphNodes choice project.id userId payload.nodesToUpdate nodes
    edges
    subgraphs := db.subgraphs.update (fun _ => true)
      (moveSubgraph choice project.id userId payload.subgraphsToUpdate)
      (columns_moveSubgraph choice project.id userId payload.subgraphsToUpdate) }

end

section

structure AccessScope where
  organizationId : Option String := none
  ownerUserId : Option String := none

def AccessScope.allows (scope : AccessScope) (project : ProjectRecord) : Bool :=
  !project.isDeleted && scope.organizationId.all (project.organizationId = ·) &&
    scope.ownerUserId.all (project.userId = ·)

structure Principal where
  scope : AccessScope := {}
  projectIds : Option (List String) := none

def findProject (db : Database) (scope : AccessScope) (projectId : String) : Option ProjectRecord :=
  db.projects.find? fun project => project.id = projectId && scope.allows project

def getAccessibleProject (db : Database) (principal : Principal) (projectId : String) :
    Option ProjectRecord :=
  if principal.projectIds.all (·.contains projectId) then findProject db principal.scope projectId
  else none

inductive Failure
  | denied | graphRevisionConflict | graphEtagConflict | projectNotFound | keyError
  | layoutFailed | notLaidOut | uniqueViolation
  | unresolved (errors : List GraphError)
  | invalid (errors : List GraphError)

def orFail {α : Type} (failure : Failure) : Option α → Except Failure α
  | some a => .ok a
  | none => .error failure

def require (condition : Bool) (failure : Failure) : Except Failure Unit :=
  if condition then .ok () else .error failure

variable {failure : Failure}

lemma orFail_eq_ok {α : Type} {x : Option α} {a : α} : orFail failure x = .ok a ↔ x = some a := by
  cases x <;> simp [orFail]

lemma require_eq_ok {condition : Bool} {u : Unit} :
    require condition failure = .ok u ↔ condition = true := by
  cases condition <;> simp [require]

structure Service where
  etag : Database → ProjectRecord → String
  arrange : GraphState → GraphState → Option PositionChanges
  validate : GraphState → GraphState → GraphChanges → List GraphError

def setPosition (nodes : Dict String NodeState) (item : String × Position) :
    Option (Dict String NodeState) :=
  (nodes.get? item.1).map fun node => nodes.set item.1 { node with position := some item.2 }

structure Prepared where
  graph : GraphState
  changes : GraphChanges
  references : ResolvedPatch
  payload : GraphOperationsAggregated

def raiseIfInvalid (errors : List GraphError) : Except Failure Unit :=
  require errors.isEmpty (.invalid errors)

variable (service : Service)

def preparePatch (snapshot : GraphState) (patch : GraphPatchSchema) : Except Failure Prepared := do
  let references ← (resolvePatch patch snapshot.nodes.keys snapshot.edges.keys).mapError .unresolved
  let applied := applyPatchToState snapshot references
  raiseIfInvalid applied.1.errors
  let positions ← orFail .layoutFailed (service.arrange applied.1.graph snapshot)
  let nodes ← orFail .keyError (positions.nodes.entries.foldlM setPosition applied.1.graph.nodes)
  let graph := { applied.1.graph with nodes }
  raiseIfInvalid (service.validate snapshot graph applied.2)
  let payload ← orFail .notLaidOut (buildOperations graph applied.2 positions)
  return { graph, changes := applied.2, references, payload }

structure Request where
  projectId : String
  expectedGraphRevision : ℕ
  expectedGraphEtag : String
  patch : GraphPatchSchema

structure Outcome where
  db : Database
  validated : GraphState
  permanentNodes : Dict String String
  permanentEdges : Dict String String
  saved : GraphState

def applyGraphChanges (choice : String → ℕ) (uuids : Uuids) (db : Database) (principal : Principal)
    (request : Request) : Except Failure Outcome := do
  let project ← orFail .denied (getAccessibleProject db principal request.projectId)
  require (project.graphRevision = request.expectedGraphRevision) .graphRevisionConflict
  require (service.etag db project = request.expectedGraphEtag) .graphEtagConflict
  let prepared ← preparePatch service (loadSnapshot db project) request.patch
  let permanent := permanentNodeIds uuids prepared.references
  let payload ← orFail .keyError (materialize uuids permanent prepared.payload)
  let project ← orFail .projectNotFound (findProject db principal.scope request.projectId)
  let userId := principal.scope.ownerUserId.getD project.userId
  let stored ← orFail .uniqueViolation (runOperations choice db project userId payload)
  let refreshed ← orFail .denied (getAccessibleProject stored principal request.projectId)
  return {
    db := stored
    validated := prepared.graph
    permanentNodes := permanent
    permanentEdges := permanentEdgeIds uuids prepared.payload.edgesToCreate
    saved := loadSnapshot stored refreshed }

end

end Dvt.Mcp
