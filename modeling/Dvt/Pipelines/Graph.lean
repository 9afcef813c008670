import Dvt.Library.Dict

/-! The stored graph of a project and the pipeline built from it. -/

namespace Dvt.Pipelines

open Library

inductive ExpressionKind
  | single | template
  deriving DecidableEq, Repr

structure NodeInputLinkValue where
  nodeId : String
  outputName : String
  deriving DecidableEq, Repr

inductive NodeRuntimeInputValue
  | expr (value : String) (kind : ExpressionKind)
  | const (value : String)
  | link (value : NodeInputLinkValue)
  | links (values : List NodeInputLinkValue)
  deriving DecidableEq, Repr

def iterNodeInputLinkValues : NodeRuntimeInputValue → List NodeInputLinkValue
  | .expr _ _ => []
  | .const _ => []
  | .link value => [value]
  | .links values => values

structure NodeData where
  name : String
  storeEnabled : Bool := false
  inputs : Dict String NodeRuntimeInputValue
  deriving DecidableEq

abbrev Pipeline := Dict String NodeData

def linkedNodeIds (inputs : Dict String NodeRuntimeInputValue) : List String :=
  (inputs.values.flatMap iterNodeInputLinkValues).map NodeInputLinkValue.nodeId

def gatherParentIds (inputs : Dict String NodeRuntimeInputValue) : List String :=
  (linkedNodeIds inputs).dedup

structure NodeClass where
  className : String
  outputNames : List String
  multipleConnections : List String := []
  terminalOutputName : Option String := none
  canBeOutputNode : Bool := true
  outputNode : Bool := false
  dfOutput : Bool := false
  requiresFreshExecution : Bool := false
  runtimeFingerprint : String
  deriving DecidableEq

structure Registry where
  get : String → Option NodeClass
  serviceOutput : (get "ServiceOutputNode").any (fun nodeClass =>
    nodeClass.outputNode && !nodeClass.dfOutput) = true

structure GraphNodeRecord where
  uiId : String
  type : String
  name : String
  inputValues : Dict String (Option NodeRuntimeInputValue)
  storeEnabled : Bool
  deriving DecidableEq

structure GraphEdgeRecord where
  source : String
  sourceHandle : Option String
  target : String
  targetHandle : Option String
  deriving DecidableEq

def isLinkList : Option NodeRuntimeInputValue → Bool
  | some (.links _) => true
  | _ => false

/-- The input values of the column type have no list of links. -/
structure Graph where
  nodes : List GraphNodeRecord
  edges : List GraphEdgeRecord
  nodup : (nodes.map GraphNodeRecord.uiId).Nodup
  noLinkList : ∀ r ∈ nodes, ∀ v ∈ r.inputValues.values, isLinkList v = false

/-- `str.replace(pattern, "")`, with the number of characters to be skipped. -/
def eraseOccurrences (pattern : List Char) : ℕ → List Char → List Char
  | _, [] => []
  | k + 1, _ :: cs => eraseOccurrences pattern k cs
  | 0, c :: cs =>
    if pattern <+: c :: cs then eraseOccurrences pattern (pattern.length - 1) cs
    else c :: eraseOccurrences pattern 0 cs

def removeText (pattern text : String) : String :=
  String.ofList (eraseOccurrences pattern.toList 0 text.toList)

section

variable (reg : Registry)

def allowsMultipleConnections (nodeName inputName : String) : Bool :=
  match reg.get nodeName with
  | some nodeClass => inputName ∈ nodeClass.multipleConnections
  | none => inputName ∈ ["input_variables", "signal_in"]

def resolveTerminalOutputName (nodeName : String) : String :=
  match reg.get nodeName with
  | none => "output"
  | some nodeClass =>
    match nodeClass.outputNames with
    | [] => "output"
    | first :: rest =>
      let names := first :: rest
      let nonSignal := names.filter (· ∉ ["signal_out", "signal_error", "output_variables"])
      match nodeClass.terminalOutputName.filter (· ∈ names) with
      | some name => name
      | none =>
        if "output" ∈ names then "output"
        else nonSignal.head?.getD (if "signal_out" ∈ names then "signal_out" else first)

def normalizeTargetNodes (targetNodes : List String) : List String :=
  targetNodes.foldl (fun ids id => if id ≠ "" ∧ id ∉ ids then ids ++ [id] else ids) []

def resolveServiceOutputNodeId (nodeId : String) (targetNodes : List String) : String :=
  if (normalizeTargetNodes targetNodes).length = 1 then "__service_output__"
  else "__service_output_" ++ nodeId ++ "__"

def resolveExecutionTargetNodes (pipeline : Pipeline) (targetNodes : List String) :
    Option (List String) :=
  let ids := normalizeTargetNodes targetNodes
  if ids = [] then none
  else some (ids.map fun id =>
    let serviceId := resolveServiceOutputNodeId id ids
    if serviceId ∈ pipeline.keys then serviceId else id)

def storeInput (inputs : Dict String NodeRuntimeInputValue) :
    String × Option NodeRuntimeInputValue → Dict String NodeRuntimeInputValue
  | (_, none) => inputs
  | (_, some (.link _)) => inputs
  | (inputName, some value) => inputs.set inputName value

def storedInputs (node : GraphNodeRecord) : Dict String NodeRuntimeInputValue :=
  node.inputValues.entries.foldl storeInput .empty

def connect (nodeName : String) (inputs : Dict String NodeRuntimeInputValue)
    (edge : GraphEdgeRecord) : Dict String NodeRuntimeInputValue :=
  match edge.targetHandle.map (removeText "input-"), edge.sourceHandle.map (removeText "output-") with
  | some targetHandle, some sourceHandle =>
    if targetHandle ≠ "" ∧ edge.source ≠ "" ∧ sourceHandle ≠ "" then
      let newLink : NodeInputLinkValue := ⟨edge.source, sourceHandle⟩
      let existing := (inputs.get? targetHandle).elim [] iterNodeInputLinkValues
      if allowsMultipleConnections reg nodeName targetHandle ∧ existing ≠ [] then
        inputs.set targetHandle (.links (existing ++ [newLink]))
      else inputs.set targetHandle (.link newLink)
    else inputs
  | _, _ => inputs

def toNodeData (edges : List GraphEdgeRecord) (node : GraphNodeRecord) : NodeData where
  name := node.name
  storeEnabled := node.storeEnabled
  inputs := (edges.filter fun e => e.target = node.uiId).foldl (connect reg node.name)
    (storedInputs node)

def graphPipeline (nodes : List GraphNodeRecord) (edges : List GraphEdgeRecord) : Pipeline :=
  nodes.foldl (fun pipeline node => pipeline.set node.uiId (toNodeData reg edges node)) .empty

def isOutput (targets : List String) (edges : List GraphEdgeRecord) (node : GraphNodeRecord) :
    Bool :=
  if targets = [] then node.uiId ∉ edges.map GraphEdgeRecord.source else node.uiId ∈ targets

def serviceNode (node : GraphNodeRecord) : NodeData where
  name := "ServiceOutputNode"
  inputs := Dict.empty.set "input" (.link ⟨node.uiId, resolveTerminalOutputName reg node.name⟩)

def outputNodes (nodes : List GraphNodeRecord) (edges : List GraphEdgeRecord)
    (targets : List String) : Option (List GraphNodeRecord) :=
  let candidates := nodes.filter fun node =>
    node.type ≠ "widget" ∧ isOutput targets edges node ∧ reg.get node.name ≠ none
  if targets ≠ [] ∧ candidates.any fun node =>
      (reg.get node.name).any fun nodeClass => !nodeClass.canBeOutputNode then none
  else some candidates

def buildPipelineFromGraph (nodes : List GraphNodeRecord) (edges : List GraphEdgeRecord)
    (targetNodes : List String) : Option Pipeline :=
  let targets := normalizeTargetNodes targetNodes
  (outputNodes reg nodes edges targets).map fun outputs =>
    outputs.foldl (fun pipeline node =>
      pipeline.set (resolveServiceOutputNodeId node.uiId targets) (serviceNode reg node))
      (graphPipeline reg nodes edges)

end

def nextFrontier (edges : List GraphEdgeRecord) (selected frontier : List String) : List String :=
  (((edges.filter fun e => e.target ∈ frontier).map GraphEdgeRecord.source).filter
    (· ∉ selected)).dedup

def selectUpstream (edges : List GraphEdgeRecord) : ℕ → List String → List String → List String
  | 0, selected, _ => selected
  | fuel + 1, selected, frontier =>
    if frontier = [] then selected
    else
      let next := nextFrontier edges selected frontier
      selectUpstream edges fuel (selected ++ next) next

def selectedNodeIds (edges : List GraphEdgeRecord) (targets : List String) : List String :=
  selectUpstream edges (edges.length + 1) targets targets

def getGraphBy (graph : Graph) (targetNodes : List String) :
    List GraphNodeRecord × List GraphEdgeRecord :=
  let targets := normalizeTargetNodes targetNodes
  if targets = [] then (graph.nodes, graph.edges)
  else
    let selected := selectedNodeIds graph.edges targets
    (graph.nodes.filter fun node => node.uiId ∈ selected,
      graph.edges.filter fun e => e.source ∈ selected ∧ e.target ∈ selected)

end Dvt.Pipelines
