import Dvt.Inputs.Building
import Dvt.Library.Loops
import Dvt.Pipelines.Frontier
import Dvt.Pipelines.Project

/-! The processor of one task: prepass, main loop, and the report of their outcome. -/

namespace Dvt.Execution

open Library Pipelines
open Inputs (Value Variables Evaluator Renderer NodeOutputs OutputHashes ExecutionMode)

variable {α τ : Type}

/-- `constant` is the value of a stored text. -/
def toNodeInput (constant : String → Value α) : NodeRuntimeInputValue → Inputs.NodeInput α
  | .expr value kind => .unlinked (.expression value kind)
  | .const value => .unlinked (.constant (constant value))
  | .link value => .links value []
  | .links [] => .unlinked (.constant (.list []))
  | .links (first :: rest) => .links first rest

def inputLinks (inputs : Dict String NodeRuntimeInputValue) : List (String × NodeInputLinkValue) :=
  inputs.entries.flatMap fun entry =>
    (iterNodeInputLinkValues entry.2).map fun link => (entry.1, link)

def iterSignalLinks (inputs : Dict String NodeRuntimeInputValue) : List NodeInputLinkValue :=
  (inputs.get? "signal_in").elim [] iterNodeInputLinkValues

structure NodeDefinition (α τ : Type) where
  inputs : Inputs.NodeClass α τ
  outputType : String → τ
  signalOutputs : List String := ["signal_out", "signal_error"]
  autoActivateSignalOutputs : Bool := true
  cachable : Bool := true
  ownMetadataCacheKey : Bool := false
  metadataVariablePrepassInputs : List String := []

/-- The leaf objects hold the booleans; hashes and fingerprints are texts. -/
structure Processor (α τ : Type) where
  registry : Registry
  definition : String → NodeDefinition α τ
  evaluator : Evaluator α τ
  render : Renderer α
  constant : String → Value α
  toBool : α → Option Bool
  ofBool : Bool → α
  toBool_ofBool : ∀ b, toBool (ofBool b) = some b
  getHash : Value α → String
  createNodeInputsFingerprint : String → Dict String String → Dict String (Value α) → String
  task : Task
  mode : ExecutionMode
  projectVariables : Variables α
  dataStores : Bool
  metadataStore : Bool
  onNodeMetadata : Bool

structure MetadataCacheEntry (α : Type) where
  outputs : Dict String (Value α)
  metadata : List String := []

inductive Validation
  | passed
  | invalid (message : String)
  | raised (message : String)

inductive NodeExecution (α : Type)
  | finished (outputs : String → Value α)
  | cancelled (message : String)
  | failed (message : String)

/-- `instantiate`, `resolveMetadata` and `store` may raise; `instanceVariables` are those of a node
that fails. -/
structure Visit (α : Type) where
  stopBefore : Bool := false
  moment : ℕ := 0
  metadataEntry : String → Except String (Option (MetadataCacheEntry α)) := fun _ => .ok none
  instantiate : Except String Unit := .ok ()
  validate : Validation := .passed
  getMetadataCacheKey : Except String (Option String) := .ok none
  execute : NodeExecution α := .finished fun _ => .none
  instanceVariables : Variables α := .empty
  resolveMetadata : Except String Unit := .ok ()
  store : Except String Unit := .ok ()
  stopAfter : Bool := false

inductive Phase
  | prepass | main
  deriving DecidableEq, Repr

/-- A phase visits a node at most once; `frontierFailure` makes the frontier raise after some of
its calls. -/
structure World (α : Type) where
  caches : ℕ → Cache
  restoredOutput : String → String → Value α
  frontierFailure : Option (ℕ × String) := none
  visit : Phase → String → Visit α

inductive TaskCall
  | started | running | success | canceled
  | error (message : String)
  deriving DecidableEq, Repr

/-- A processor between two steps, with a log of its calls. -/
structure State (α : Type) where
  executionOrder : List String := []
  plannedExecutionOrder : Option (List String) := none
  completedNodeIds : List String := []
  recoverableFailedNodeIds : List String := []
  executedNodes : List String := []
  failedNodes : List String := []
  skippedNodes : List String := []
  restoredNodes : List String := []
  nodesOutputs : NodeOutputs α := fun _ _ => none
  nodesOutputHashes : OutputHashes := fun _ _ => ""
  nodeSignalStates : String → String → Bool := fun _ _ => false
  cachedNodes : List String := []
  taskCalls : List TaskCall := []
  kwargsCalls : List (String × NodeOutputs α) := []
  executeCalls : List String := []
  nodeErrors : List (String × String) := []
  nodeMetadata : List String := []

def State.effectiveExecutionOrder (s : State α) : List String :=
  s.plannedExecutionOrder.getD s.executionOrder

def appendOnce (ids : List String) (id : String) : List String :=
  if id ∈ ids then ids else ids ++ [id]

def State.skip (s : State α) (nodeId : String) : State α :=
  { s with skippedNodes := appendOnce s.skippedNodes nodeId }

def State.fail (s : State α) (nodeId : String) : State α :=
  { s with failedNodes := appendOnce s.failedNodes nodeId }

def State.call (s : State α) (call : TaskCall) : State α :=
  { s with taskCalls := s.taskCalls ++ [call] }

section

def isErrorSignalGate (link : String × NodeInputLinkValue) : Bool :=
  link.1 = "signal_in" ∧ link.2.outputName = "signal_error"

def State.hasInactiveRequiredSignal (s : State α) (inputs : Dict String NodeRuntimeInputValue) :
    Bool :=
  (iterSignalLinks inputs).any fun link => !s.nodeSignalStates link.nodeId link.outputName

def State.shouldSkipDueToRecoverableParentFailure (s : State α)
    (inputs : Dict String NodeRuntimeInputValue) : Bool :=
  let links := (inputLinks inputs).filter fun link => link.2.nodeId ∈ s.recoverableFailedNodeIds
  links.any fun source =>
    let sourceLinks := links.filter fun link => link.2.nodeId = source.2.nodeId
    !sourceLinks.any isErrorSignalGate ||
      sourceLinks.any fun link => !(isErrorSignalGate link || link.2.outputName = "output_variables")

variable (P : Processor α τ)

def Processor.hasErrorSignalDownstream (nodeId : String) : Bool :=
  P.task.pipeline.values.any fun data => (iterSignalLinks data.inputs).any fun link =>
    link.nodeId = nodeId ∧ link.outputName = "signal_error"

def Processor.resolveSignalOutputState (outputName : String) (output : Option (Value α))
    (autoActivate : Bool) : Bool :=
  match output with
  | some (.atom a) => (P.toBool a).getD (autoActivate ∧ outputName = "signal_out")
  | _ => autoActivate ∧ outputName = "signal_out"

def Processor.signalStates (definition : NodeDefinition α τ) (outputNames : List String)
    (outputs : String → Option (Value α)) (outputName : String) : Bool :=
  outputName ∈ outputNames ∧ outputName ∈ definition.signalOutputs ∧
    P.resolveSignalOutputState outputName (outputs outputName) definition.autoActivateSignalOutputs

def Processor.storeOutputs (s : State α) (nodeId : String) (definition : NodeDefinition α τ)
    (outputNames : List String) (outputs : String → Option (Value α)) : State α :=
  { s with
    nodesOutputs := Function.update s.nodesOutputs nodeId outputs
    nodesOutputHashes := Function.update s.nodesOutputHashes nodeId fun name =>
      (outputs name).elim (s.nodesOutputHashes nodeId name) P.getHash
    nodeSignalStates :=
      Function.update s.nodeSignalStates nodeId (P.signalStates definition outputNames outputs) }

end

structure NodeResult where
  stopRequested : Bool := false
  shouldBreak : Bool := false
  taskErrorReported : Bool := false
  errorMessage : Option String := none
  deriving DecidableEq, Repr

inductive Raised
  | nodeInput (message : String)
  | unexpected (message : String)
  deriving DecidableEq, Repr

def nodeNotFound (name : String) : String := s!"Node '{name}' not found in registry."

structure Node where
  id : String
  data : NodeData
  nodeClass : Pipelines.NodeClass

def validationError (node : Node) (message : String) : String :=
  s!"Validation error for node {node.id} ({node.nodeClass.className}): {message}"

section

variable (P : Processor α τ) (visit : Visit α)

def Processor.definitionOf (node : Node) : NodeDefinition α τ := P.definition node.data.name

def Processor.inputsOf (node : Node) : Dict String (Inputs.NodeInput α) :=
  node.data.inputs.mapValues (toNodeInput P.constant)

def Processor.shouldSkipOutputNode (nodeClass : Pipelines.NodeClass) : Bool :=
  P.mode = .metadataOnly ∧ nodeClass.outputNode

def Processor.incrementalMetadataEnabled : Bool :=
  P.mode = .metadataOnly ∧ P.task.changedNodeIds ≠ []

def Processor.metadataCacheAllowedForNode (nodeId : String) : Bool :=
  !P.incrementalMetadataEnabled || nodeId ∉ affectedNodeIds P.task

def Processor.buildNodeKwargs (s : State α) (node : Node) : Except String (Dict String (Value α)) :=
  Inputs.buildNodeKwargs ⟨P.evaluator, P.render, node.id, (P.definitionOf node).inputs, s.nodesOutputs,
    visit.moment + 1⟩ P.mode (P.inputsOf node) P.projectVariables

def Processor.gatherParentHashesAndConstants (s : State α) (node : Node) (moment : ℕ)
    (runtimeVariables : Variables α) :
    Except String (Dict String String × Dict String (Value α)) :=
  Inputs.gatherParentHashesAndConstants P.evaluator node.id (P.definitionOf node).inputs moment
    P.mode s.nodesOutputHashes (P.inputsOf node) runtimeVariables

def Processor.fits (node : Node) (cached : MetadataCacheEntry α) : Bool :=
  (cached.outputs.keys.all (· ∈ node.nodeClass.outputNames)) &&
    (node.nodeClass.outputNames.all fun name =>
      name ∈ cached.outputs.keys || name ∈ (P.definitionOf node).signalOutputs) &&
    cached.metadata.all (· ∈ node.nodeClass.outputNames)

def Processor.restoreEntry (s : State α) (node : Node) (cached : MetadataCacheEntry α) : State α :=
  let outputs := fun name => if name ∈ node.nodeClass.outputNames then
    some ((cached.outputs.get? name).getD .none) else none
  { P.storeOutputs s node.id (P.definitionOf node) node.nodeClass.outputNames outputs with
    completedNodeIds := node.id :: s.completedNodeIds
    cachedNodes := node.id :: s.cachedNodes }

def Processor.tryRestoreNodeMetaCacheAndSkip (s : State α) (node : Node) (metaCacheKey : String) :
    Except Raised (Option (State α)) :=
  if P.mode = .full ∨ !P.metadataStore then .ok none
  else
    match visit.metadataEntry metaCacheKey with
    | .error message => .error (.unexpected message)
    | .ok none => .ok none
    | .ok (some cached) => .ok (if P.fits node cached then some (P.restoreEntry s node cached) else none)

def Processor.tryRestoreNodeMetaCacheBeforeInstantiation (s : State α) (node : Node) :
    Except Raised (Option (State α) × Option String) :=
  if P.incrementalMetadataEnabled ∧ P.metadataCacheAllowedForNode node.id ∧ P.metadataStore ∧
      (P.definitionOf node).cachable ∧ !(P.definitionOf node).ownMetadataCacheKey then
    match P.gatherParentHashesAndConstants s node visit.moment P.projectVariables with
    | .error message => .error (.nodeInput message)
    | .ok (parentHashes, constants) =>
      let key := P.createNodeInputsFingerprint node.nodeClass.className parentHashes constants
      match P.tryRestoreNodeMetaCacheAndSkip visit s node key with
      | .error raised => .error raised
      | .ok restored => .ok (restored, some key)
  else .ok (none, none)

def State.notifyMetadata (s : State α) (nodeId : String) (enabled : Bool) : State α :=
  { s with nodeMetadata := if enabled then s.nodeMetadata ++ [nodeId] else s.nodeMetadata }

def State.notifyError (s : State α) (nodeId message : String) : State α :=
  { s with nodeErrors := s.nodeErrors ++ [(nodeId, message)] }

def State.buildsKwargs (s : State α) (nodeId : String) : State α :=
  { s with kwargsCalls := s.kwargsCalls ++ [(nodeId, s.nodesOutputs)] }

def Processor.announceRestored (s : State α) (node : Node) : State α × Except Raised NodeResult :=
  if P.onNodeMetadata then
    match P.buildNodeKwargs visit s node with
    | .error message => (s.buildsKwargs node.id, .error (.nodeInput message))
    | .ok _ =>
      match visit.instantiate with
      | .error message => (s.buildsKwargs node.id, .error (.unexpected message))
      | .ok () => ((s.buildsKwargs node.id).notifyMetadata node.id true, .ok {})
  else (s, .ok {})

def Processor.runtimeErrorOutputs (message name : String) : Value α :=
  if name = "output_variables" then
    Inputs.Dict.toValue (visit.instanceVariables.set "__dvt_error_text"
      (.variable "__dvt_error_text" (.text message)))
  else if name = "signal_out" then .atom (P.ofBool false)
  else if name = "signal_error" then .atom (P.ofBool true)
  else .none

def Processor.storeNodeOutputs (s : State α) (node : Node) (value : String → Value α) : State α :=
  P.storeOutputs s node.id (P.definitionOf node) node.nodeClass.outputNames fun name =>
    if name ∈ node.nodeClass.outputNames then some (value name) else s.nodesOutputs node.id name

def State.recover (s : State α) (nodeId : String) : State α :=
  { s with
    recoverableFailedNodeIds := nodeId :: s.recoverableFailedNodeIds
    completedNodeIds := nodeId :: s.completedNodeIds }

def State.finish (s : State α) (nodeId : String) : State α :=
  { s with
    executedNodes := s.executedNodes ++ [nodeId]
    completedNodeIds := nodeId :: s.completedNodeIds }

def Processor.failNode (s : State α) (node : Node) (message : String) :
    State α × Except Raised NodeResult :=
  let s := s.notifyError node.id message
  if P.hasErrorSignalDownstream node.id then
    let s := (P.storeNodeOutputs s node (P.runtimeErrorOutputs visit message)).fail node.id
    (s.recover node.id, .ok { errorMessage := some message })
  else if P.mode = .metadataOnly then
    ((s.fail node.id).skip node.id, .ok { errorMessage := some message })
  else (s.fail node.id, .ok { shouldBreak := true, errorMessage := some message })

def Processor.finishNode (s : State α) (node : Node) (outputs : String → Value α) :
    State α × Except Raised NodeResult :=
  let s := P.storeNodeOutputs s node outputs
  match visit.resolveMetadata with
  | .error message => (s, .error (.unexpected message))
  | .ok () =>
    let s := s.notifyMetadata node.id P.onNodeMetadata
    match visit.store with
    | .error message => (s, .error (.unexpected message))
    | .ok () =>
      (s.finish node.id, .ok { stopRequested := visit.stopAfter })

def State.executes (s : State α) (nodeId : String) : State α :=
  { s with executeCalls := s.executeCalls ++ [nodeId] }

def Processor.executeNode (s : State α) (node : Node) : State α × Except Raised NodeResult :=
  let s := s.executes node.id
  match visit.execute with
  | .finished outputs => P.finishNode visit s node outputs
  | .failed message => P.failNode visit s node message
  | .cancelled message =>
    if visit.stopAfter then (s, .ok { stopRequested := true }) else P.failNode visit s node message

def Processor.restoreOrExecute (s : State α) (node : Node) (kwargs : Dict String (Value α))
    (earlyKey : Option String) : State α × Except Raised NodeResult :=
  match P.gatherParentHashesAndConstants s node (visit.moment + 2)
      (Inputs.runtimeVariablesMap P.projectVariables kwargs) with
  | .error message => (s, .error (.nodeInput message))
  | .ok (parentHashes, constants) =>
    match visit.getMetadataCacheKey with
    | .error message => (s, .error (.unexpected message))
    | .ok ownKey =>
      let key := ((ownKey.filter (· ≠ "")).or (earlyKey.filter (· ≠ ""))).getD
        (P.createNodeInputsFingerprint node.nodeClass.className parentHashes constants)
      let restored := if (P.definitionOf node).cachable ∧ P.metadataCacheAllowedForNode node.id ∧
          earlyKey = none then P.tryRestoreNodeMetaCacheAndSkip visit s node key else .ok none
      match restored with
      | .error raised => (s, .error raised)
      | .ok (some s') => (s'.notifyMetadata node.id P.onNodeMetadata, .ok {})
      | .ok none => P.executeNode visit s node

def Processor.startNode (s : State α) (node : Node) (earlyKey : Option String) :
    State α × Except Raised NodeResult :=
  let kwargs := P.buildNodeKwargs visit s node
  let s := s.buildsKwargs node.id
  match kwargs with
  | .error message => (s, .error (.nodeInput message))
  | .ok kwargs =>
    match visit.instantiate with
    | .error message => (s, .error (.unexpected message))
    | .ok () =>
      match visit.validate with
      | .raised message => (s, .error (.unexpected message))
      | .invalid message =>
        let s := s.notifyError node.id s!"Validation error: {message}"
        ((s.skip node.id).fail node.id, .ok { errorMessage := some (validationError node message) })
      | .passed => P.restoreOrExecute visit s node kwargs earlyKey

def Processor.processNode (s : State α) (nodeId : String) : State α × Except Raised NodeResult :=
  if nodeId ∈ s.completedNodeIds then (s, .ok {})
  else
    match P.task.pipeline.get? nodeId with
    | none => (s, .error (.unexpected s!"'{nodeId}'"))
    | some data =>
      if (gatherParentIds data.inputs).any (· ∈ s.skippedNodes) then (s.skip nodeId, .ok {})
      else if s.shouldSkipDueToRecoverableParentFailure data.inputs then (s.skip nodeId, .ok {})
      else
        match P.registry.get data.name with
        | none => (s, .error (.unexpected (nodeNotFound data.name)))
        | some nodeClass =>
          if P.shouldSkipOutputNode nodeClass then (s, .ok {})
          else if s.hasInactiveRequiredSignal data.inputs then (s.skip nodeId, .ok {})
          else
            let node : Node := ⟨nodeId, data, nodeClass⟩
            match P.tryRestoreNodeMetaCacheBeforeInstantiation visit s node with
            | .error raised => (s, .error raised)
            | .ok (some restored, _) => P.announceRestored visit restored node
            | .ok (none, earlyKey) => P.startNode visit s node earlyKey

end

section

variable (P : Processor α τ) (W : World α)

def Processor.applyRestoredEntry (s : State α) (entry : String × Generation) : State α :=
  match P.task.pipeline.get? entry.1 with
  | none => s
  | some data =>
    let outputs := fun name => if name ∈ entry.2.outputNames then
      some (W.restoredOutput entry.1 name) else none
    { P.storeOutputs s entry.1 (P.definition data.name) entry.2.outputNames outputs with
      completedNodeIds := entry.1 :: s.completedNodeIds
      restoredNodes := s.restoredNodes ++ [entry.1] }

def Processor.prepareCacheFrontier (s : State α) : State α × Except Raised Unit :=
  if P.task.changedNodeIds = [] ∨ !P.dataStores then (s, .ok ())
  else
    match W.frontierFailure with
    | some (calls, message) =>
      let run := (Run.start P.registry P.task).prepare P.registry W.caches calls
      (run.restoredNodes.foldl (P.applyRestoredEntry W) s, .error (.unexpected message))
    | none =>
      let run := Pipelines.prepareCacheFrontier P.registry W.caches P.task
      let s := run.restoredNodes.foldl (P.applyRestoredEntry W) s
      if run.status = .failed then
        (s, .error (.unexpected (((P.task.pipeline.values.find? fun data =>
          P.registry.get data.name = none).map fun data => nodeNotFound data.name).getD "")))
      else ({ s with plannedExecutionOrder := some run.remaining }, .ok ())

def Processor.collectVariableSourceNodeIds (data : NodeData) : List String :=
  ((inputLinks data.inputs).filter fun link =>
    ((P.definition data.name).inputs.inputDefinitions.get? link.1).any
      Inputs.InputDefinition.isVariable).map fun link => link.2.nodeId

def Processor.prepassSourcesOf (nodeId : String) : Except Raised (List String) :=
  match P.task.pipeline.get? nodeId with
  | none => .error (.unexpected s!"'{nodeId}'")
  | some data =>
    match P.registry.get data.name with
    | none => .error (.unexpected (nodeNotFound data.name))
    | some nodeClass =>
      if P.shouldSkipOutputNode nodeClass ∨
          (P.definition data.name).metadataVariablePrepassInputs = [] then .ok []
      else .ok (P.collectVariableSourceNodeIds data)

def Processor.collectMetadataVariablePrepassSourceNodes (s : State α) :
    Except Raised (List String) :=
  if P.mode = .full then .ok []
  else
    match s.effectiveExecutionOrder.mapM P.prepassSourcesOf with
    | .error raised => .error raised
    | .ok sources => .ok sources.flatten

def quotedIds (ids : List String) : String := ", ".intercalate (ids.map fun id => s!"'{id}'")

def graphErrorText : GraphError → String
  | .nodeNotFound nodeId => s!"Target node '{nodeId}' not found in pipeline."
  | .dependencyCycle remaining =>
    "Cycle detected involving nodes: \x7b" ++ quotedIds remaining ++ "\x7d"

def Processor.prepareMetadataVariablePrepassOrder (s : State α) : Except Raised (List String) :=
  match P.collectMetadataVariablePrepassSourceNodes s with
  | .error raised => .error raised
  | .ok sources =>
    if sources = [] then .ok []
    else
      match topologicalSort P.task.pipeline (some (sortedSet sources)) with
      | .error error => .error (.unexpected (graphErrorText error))
      | .ok order => .ok (order.filter (· ∈ s.effectiveExecutionOrder))

def Processor.prepassStep (current : State α × NodeResult) (nodeId : String) :
    (State α × NodeResult) × Control Raised :=
  match P.processNode (W.visit .prepass nodeId) current.1 nodeId with
  | (s, .error raised) => ((s, current.2), .raise raised)
  | (s, .ok result) =>
    let first := current.2.errorMessage.or result.errorMessage
    if result.stopRequested ∨ result.shouldBreak then
      ((s, { result with errorMessage := first }), .leave)
    else ((s, { errorMessage := first }), .next)

def Processor.runMetadataVariablePrepass (s : State α) : State α × Except Raised NodeResult :=
  match P.prepareMetadataVariablePrepassOrder s with
  | .error raised => (s, .error raised)
  | .ok order =>
    match loop (P.prepassStep W) order (s, {}) with
    | ((s, _), .raise raised) => (s, .error raised)
    | ((s, result), .leave) => (s, .ok result)
    | ((s, result), .next) => (s, .ok result)

structure Flags where
  stopped : Bool := false
  hadError : Bool := false
  taskErrorReported : Bool := false
  firstValidationErrorMessage : Option String := none
  deriving DecidableEq, Repr

def Flags.note (flags : Flags) (result : NodeResult) : Flags :=
  { stopped := flags.stopped || result.stopRequested
    hadError := flags.hadError || result.errorMessage.isSome || result.shouldBreak
    taskErrorReported := flags.taskErrorReported || result.taskErrorReported
    firstValidationErrorMessage :=
      flags.firstValidationErrorMessage.or (result.errorMessage.filter (· ≠ "")) }

def Processor.mainStep (current : State α × Flags) (nodeId : String) :
    (State α × Flags) × Control Raised :=
  if (W.visit .main nodeId).stopBefore then
    ((current.1, { current.2 with stopped := true }), .leave)
  else
    match P.processNode (W.visit .main nodeId) current.1 nodeId with
    | (s, .error raised) => ((s, current.2), .raise raised)
    | (s, .ok result) =>
      ((s, current.2.note result),
        if result.stopRequested ∨ result.shouldBreak then .leave else .next)

def Processor.runTask (s : State α) : State α × Except Raised Flags :=
  match P.prepareCacheFrontier W s with
  | (s, .error raised) => (s, .error raised)
  | (s, .ok ()) =>
    match P.runMetadataVariablePrepass W s with
    | (s, .error raised) => (s, .error raised)
    | (s, .ok result) =>
      let flags := ({} : Flags).note result
      if flags.stopped ∨ result.shouldBreak then (s, .ok flags)
      else
        match loop (P.mainStep W) s.effectiveExecutionOrder (s, flags) with
        | ((s, _), .raise raised) => (s, .error raised)
        | ((s, flags), .leave) => (s, .ok flags)
        | ((s, flags), .next) => (s, .ok flags)

structure ProcessResult where
  success : Bool
  errorMessage : Option String := none
  deriving DecidableEq, Repr

def report (s : State α) (outcome : Except Raised Flags) : State α × ProcessResult :=
  match outcome with
  | .error (.nodeInput message) => (s.call (.error message), ⟨false, some message⟩)
  | .error (.unexpected message) =>
    (s.call (.error message), ⟨false, some s!"Unexpected error: {message}"⟩)
  | .ok flags =>
    if flags.stopped then (s.call .canceled, ⟨false, none⟩)
    else if flags.hadError then
      let message := flags.firstValidationErrorMessage.getD "Task finished with errors."
      (if flags.taskErrorReported then s else s.call (.error message), ⟨false, some message⟩)
    else (s.call .success, ⟨true, none⟩)

def State.initial (executionOrder : List String) : State α :=
  { ({} : State α).call .started with executionOrder }.call .running

def Processor.process : State α × ProcessResult :=
  match P.task.sorted with
  | .error error =>
    ((({} : State α).call .started).call (.error (graphErrorText error)),
      ⟨false, some (graphErrorText error)⟩)
  | .ok [] => ((({} : State α).call .started).call .success, ⟨true, none⟩)
  | .ok (first :: rest) =>
    let outcome := P.runTask W (.initial (first :: rest))
    report outcome.1 outcome.2

end

end Dvt.Execution
