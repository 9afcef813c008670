import Dvt.Library.Lines
import Dvt.Pipelines.GraphOperations
import Dvt.Projects.Copy
import Mathlib.Data.Rat.Defs

/-! The working copy of a project graph, and the patches of a client. -/

namespace Dvt.Mcp

open Library List
open Pipelines (ExpressionKind sortedSet)
open Projects (Json StoredInput)

structure Position where
  x : ℚ
  y : ℚ
  deriving DecidableEq

abbrev NodeInputValues := Dict String StoredInput

-- the id of a node, an edge or a subgraph is the key under which a graph keeps it
structure NodeState where
  position : Option Position := none
  subgraphId : Option String := none
  nodeType : String := ""
  displayName : String := ""
  comment : Option String := none
  inputs : NodeInputValues := .empty
  uiType : String := "custom"
  storeEnabled : Option Bool := some false

structure EdgeState where
  source : String
  target : String
  sourceHandle : String := ""
  targetHandle : String := ""
  subgraphId : Option String := none
  uiType : String := "custom"
  deriving DecidableEq

structure SubgraphState where
  position : Position
  expanded : Bool := true
  deriving DecidableEq

structure GraphState where
  nodes : Dict String NodeState := .empty
  edges : Dict String EdgeState := .empty
  subgraphs : Dict String SubgraphState := .empty

structure GraphChanges where
  createdNodeIds : List String := []
  updatedNodeIds : List String := []
  deletedNodeIds : List String := []
  createdEdgeIds : List String := []
  deletedEdgeIds : List String := []
  touchedCodeNodeIds : List String := []

structure PositionChanges where
  nodes : Dict String Position
  subgraphs : Dict String Position

inductive InputKind
  | constant | expression | connectionRef

structure InputValueSchema where
  kind : InputKind
  value : Json := .null
  expressionKind : ExpressionKind := .single
  connectionId : Option String := none

abbrev InputEdits := Dict String (Option InputValueSchema)

structure AddNodeSchema where
  ref : String
  nodeType : String
  displayName : Option String := none
  comment : Option String := none
  subgraphId : Option String := none
  inputs : InputEdits := .empty
  storeEnabled : Bool := false

structure UpdateNodeSchema where
  id : String
  nodeType : Pipelines.Field String := none
  displayName : Pipelines.Field String := none
  comment : Pipelines.Field String := none
  subgraphId : Pipelines.Field String := none
  inputs : Pipelines.Field InputEdits := none
  storeEnabled : Pipelines.Field Bool := none

inductive NodeReference
  | new (ref : String)
  | existing (id : String)

structure AddConnectionSchema where
  source : NodeReference
  sourceOutput : String
  target : NodeReference
  targetInput : String
  subgraphId : Option String := none

structure GraphPatchSchema where
  addNodes : List AddNodeSchema := []
  updateNodes : List UpdateNodeSchema := []
  deleteNodeIds : List String := []
  addConnections : List AddConnectionSchema := []
  deleteConnectionIds : List String := []

inductive Side
  | source | target

inductive GraphError
  | duplicateNodeRef (ref : String)
  | unknownNodeRef (ref : String) (connectionIndex : ℕ) (endpoint : Side)
  | unknownEndpoint (nodeId : String) (connectionIndex : ℕ) (endpoint : Side)
  | unknownSubgraph (subgraphId : String)
  | unknownNodes (nodeIds : List String)
  | unknownNode (nodeId : String)
  | invalidInput (nodeId : String) (message : String)
  | duplicateNodeId (nodeId : String)
  | unknownConnections (connectionIds : List String)
  | duplicateConnectionId (connectionId : String)
  | unknownConnectionNode (connectionId : String)

def canonicalInput (value : InputValueSchema) : Except String StoredInput :=
  match value.kind with
  | .constant => .ok (.const value.value)
  | .expression =>
    match value.value with
    | .str text =>
      if text.toList.all isSpace then
        .error "Expression input requires a non-empty string value."
      else .ok (.expr text value.expressionKind)
    | _ => .error "Expression input requires a non-empty string value."
  | .connectionRef =>
    match value.connectionId.filter (· ≠ "") with
    | some connectionId => .ok (.const (.str connectionId))
    | none => .error "connection_ref input requires connection_id."

structure ResolvedNode extends AddNodeSchema where
  id : String

structure ResolvedConnection where
  id : String
  source : String
  sourceOutput : String
  target : String
  targetInput : String
  subgraphId : Option String

structure ResolvedPatch where
  addNodes : List ResolvedNode
  updateNodes : List UpdateNodeSchema
  deleteNodeIds : List String
  addConnections : List ResolvedConnection
  deleteConnectionIds : List String
  nodeIdsByRef : Dict String String

def temporaryName (kind : String) (index : ℕ) : String :=
  let digits := toString index
  "__mcp_" ++ kind ++ "_" ++ String.ofList (List.replicate (8 - digits.length) '0') ++ digits ++ "__"

def freshen (used : List String) : ℕ → String → String
  | 0, value => value
  | fuel + 1, value => if value ∈ used then freshen used fuel (value ++ "_") else value

/-- Each turn finds another used name, so it ends after that many. -/
def allocate (used : List String) (kind : String) (index : ℕ) : String :=
  freshen used used.length (temporaryName kind index)

structure Resolving where
  used : List String
  nodes : List ResolvedNode := []
  refs : Dict String String := .empty
  connections : List ResolvedConnection := []
  errors : List GraphError := []

def resolveNode (state : Resolving) (entry : AddNodeSchema × ℕ) : Resolving :=
  if entry.1.ref ∈ state.refs.keys then
    { state with errors := state.errors ++ [.duplicateNodeRef entry.1.ref] }
  else
    let id := allocate state.used "node" entry.2
    { state with
      used := id :: state.used
      nodes := state.nodes ++ [{ entry.1 with id }]
      refs := state.refs.set entry.1.ref id }

def resolveEndpoint (refs : Dict String String) (existingIds deletedIds : List String)
    (connectionIndex : ℕ) (side : Side) : NodeReference → Except GraphError String
  | .new ref =>
    match refs.get? ref with
    | some id => .ok id
    | none => .error (.unknownNodeRef ref connectionIndex side)
  | .existing id =>
    if id ∉ existingIds ∨ id ∈ deletedIds then .error (.unknownEndpoint id connectionIndex side)
    else .ok id

def endpointErrors : Except GraphError String → List GraphError
  | .ok _ => []
  | .error error => [error]

def resolveConnection (existingIds deletedIds : List String) (state : Resolving)
    (entry : AddConnectionSchema × ℕ) : Resolving :=
  let source := resolveEndpoint state.refs existingIds deletedIds entry.2 .source entry.1.source
  let target := resolveEndpoint state.refs existingIds deletedIds entry.2 .target entry.1.target
  match source, target with
  | .ok source, .ok target =>
    let id := allocate state.used "edge" entry.2
    { state with
      used := id :: state.used
      connections := state.connections ++
        [{ id, source, target
           sourceOutput := entry.1.sourceOutput
           targetInput := entry.1.targetInput
           subgraphId := entry.1.subgraphId }] }
  | _, _ => { state with errors := state.errors ++ endpointErrors source ++ endpointErrors target }

def resolveNodes (patch : GraphPatchSchema) (used : List String) : Resolving :=
  patch.addNodes.zipIdx.foldl resolveNode { used }

def resolvePatch (patch : GraphPatchSchema) (nodeIds edgeIds : List String) :
    Except (List GraphError) ResolvedPatch :=
  let state := patch.addConnections.zipIdx.foldl (resolveConnection nodeIds patch.deleteNodeIds)
    (resolveNodes patch (nodeIds ++ edgeIds))
  if state.errors.isEmpty then
    .ok
      { addNodes := state.nodes
        updateNodes := patch.updateNodes
        deleteNodeIds := patch.deleteNodeIds
        addConnections := state.connections
        deleteConnectionIds := patch.deleteConnectionIds
        nodeIdsByRef := state.refs }
  else .error state.errors

lemma head?_freshen {used : List String} {value : String} (h : value.toList.head? = some '_')
    (fuel : ℕ) : (freshen used fuel value).toList.head? = some '_' := by
  induction fuel generalizing value with
  | zero => exact h
  | succ fuel ih =>
    rw [freshen]
    split
    · refine ih ?_
      rw [String.toList_append, List.head?_append, h]
      rfl
    · exact h

structure Resolving.Consistent (state : Resolving) : Prop where
  values : state.refs.values = state.nodes.map ResolvedNode.id
  head? : ∀ id ∈ state.refs.values, id.toList.head? = some '_'

lemma consistent_resolveNode {state : Resolving} (entry : AddNodeSchema × ℕ)
    (h : state.Consistent) : (resolveNode state entry).Consistent := by
  rw [resolveNode]
  split
  · exact ⟨h.values, h.head?⟩
  · next hnew =>
    have hv : (state.refs.set entry.1.ref (allocate state.used "node" entry.2)).values =
        state.refs.values ++ [allocate state.used "node" entry.2] := by
      rw [Dict.values, Dict.entries_set_of_notMem _ hnew, map_append]
      rfl
    constructor
    · rw [hv, h.values, map_append]
      rfl
    · rw [hv]
      intro id hid
      obtain hid | hid := mem_append.mp hid
      · exact h.head? id hid
      · rw [mem_singleton.mp hid]
        exact head?_freshen (by simp [temporaryName]) _

lemma consistent_resolveNodes (patch : GraphPatchSchema) (used : List String) :
    (resolveNodes patch used).Consistent := by
  rw [resolveNodes]
  generalize hs : ({ used } : Resolving) = state
  have hc : state.Consistent := by
    subst hs
    exact ⟨rfl, nofun⟩
  clear hs
  induction patch.addNodes.zipIdx generalizing state with
  | nil => exact hc
  | cons entry entries ih => exact ih _ (consistent_resolveNode entry hc)

lemma resolveConnections_keep (existingIds deletedIds : List String)
    (entries : List (AddConnectionSchema × ℕ)) (state : Resolving) :
    (entries.foldl (resolveConnection existingIds deletedIds) state).nodes = state.nodes ∧
      (entries.foldl (resolveConnection existingIds deletedIds) state).refs = state.refs := by
  induction entries generalizing state with
  | nil => exact ⟨rfl, rfl⟩
  | cons entry entries ih =>
    obtain ⟨hn, hr⟩ := ih (resolveConnection existingIds deletedIds state entry)
    rw [foldl_cons, hn, hr, resolveConnection]
    split <;> exact ⟨rfl, rfl⟩

def temporaryNodeIds (graph : GraphState) (patch : GraphPatchSchema) : List String :=
  (resolveNodes patch (graph.nodes.keys ++ graph.edges.keys)).refs.values

lemma resolvePatch_ok {graph : GraphState} {patch : GraphPatchSchema} {resolved : ResolvedPatch}
    (h : resolvePatch patch graph.nodes.keys graph.edges.keys = .ok resolved) :
    resolved.nodeIdsByRef.values = temporaryNodeIds graph patch ∧
      resolved.addNodes.map ResolvedNode.id = temporaryNodeIds graph patch ∧
      resolved.updateNodes = patch.updateNodes ∧ resolved.deleteNodeIds = patch.deleteNodeIds ∧
      resolved.deleteConnectionIds = patch.deleteConnectionIds := by
  rw [resolvePatch] at h
  split at h
  · cases h
    obtain ⟨hn, hr⟩ := resolveConnections_keep graph.nodes.keys patch.deleteNodeIds
      patch.addConnections.zipIdx (resolveNodes patch (graph.nodes.keys ++ graph.edges.keys))
    refine ⟨congrArg Dict.values hr, ?_, rfl, rfl, rfl⟩
    rw [hn]
    exact (consistent_resolveNodes patch _).values.symm
  · cases h

end Dvt.Mcp
