import Dvt.Inputs.Values

/-! Building the arguments of a node, and gathering its fingerprint. -/

namespace Dvt.Inputs

open Library Dict
open Pipelines (NodeInputLinkValue)

variable {α τ : Type}

inductive ExecutionMode
  | full | metadataOnly
  deriving DecidableEq, Repr

lemma entries_id_subset {κ ν : Type} (d : Dict κ ν) : (id d).entries ⊆ d.entries :=
  List.Subset.refl _

/-- Inputs go by attribute names. A selector of inputs only leaves some out. -/
structure NodeClass (α τ : Type) where
  name : String
  inputDefinitions : Dict String (InputDefinition τ)
  runtimeInputs : Dict String (NodeInput α) → Dict String (NodeInput α) := id
  runtimeInputs_subset : ∀ inputs, (runtimeInputs inputs).entries ⊆ inputs.entries := by
    exact entries_id_subset

abbrev NodeOutputs (α : Type) := String → String → Option (Value α)

abbrev Renderer (α : Type) :=
  ℕ → Option (Value α) → String → Variables α → Variables α → Except String String

section

def iterVariableItems : Value α → List (String × Value α)
  | .dict entries =>
    let items := entries.filterMap fun entry =>
      match entry.1 with
      | .text key => if key = "" then none else some (key, entry.2)
      | _ => none
    match Value.lookup "name" entries with
    | some (.text name) => if name = "" then items else [(name, .dict entries)]
    | _ => items
  | .variable name value => if name = "" then [] else [(name, .variable name value)]
  | _ => []

def isEmptyVariablePayload : Value α → Bool
  | .dict [] => true
  | _ => false

variable (nodeId inputName : String) (outputs : NodeOutputs α)

def missingOutput (link : NodeInputLinkValue) : String :=
  s!"Node {nodeId}: Missing output '{link.outputName}' from source node '{link.nodeId}' " ++
    s!"for input '{inputName}'."

def mergeLinkedVariables : List NodeInputLinkValue → Variables α → Except String (Variables α)
  | [], target => .ok target
  | link :: links, target =>
    match outputs link.nodeId link.outputName with
    | none => .error (missingOutput nodeId inputName link)
    | some payload =>
      if isEmptyVariablePayload payload then mergeLinkedVariables links target
      else if (iterVariableItems payload).isEmpty then
        .error s!"Node {nodeId}: Variable input '{inputName}' expects variable outputs."
      else mergeLinkedVariables links
        ((iterVariableItems payload).foldl (fun target item => target.set item.1 item.2) target)

end

section

/-- What the building of the arguments of one node reads. -/
structure NodeContext (α τ : Type) where
  evaluator : Evaluator α τ
  render : Renderer α
  nodeId : String
  node : NodeClass α τ
  outputs : NodeOutputs α
  moment : ℕ

variable (c : NodeContext α τ)

def collectEntry (linked : Variables α) (entry : String × NodeInput α) :
    Except String (Variables α) :=
  match c.node.inputDefinitions.get? entry.1, entry.2 with
  | some inputDef, .links first rest =>
    if inputDef.isVariable then
      mergeLinkedVariables c.nodeId entry.1 c.outputs (first :: rest) linked
    else .ok linked
  | _, _ => .ok linked

def collectLinkedVariables (inputs : Dict String (NodeInput α)) : Except String (Variables α) :=
  inputs.entries.foldlM (collectEntry c) Dict.empty

def Dict.toValue (d : Variables α) : Value α :=
  .dict (d.entries.map fun entry => (.text entry.1, entry.2))

def linkOutputs (missing : NodeInputLinkValue → String) : List NodeInputLinkValue → Except String (List (Value α))
  | [] => .ok []
  | link :: links =>
    match c.outputs link.nodeId link.outputName with
    | none => .error (missing link)
    | some value =>
      match linkOutputs missing links with
      | .error error => .error error
      | .ok values => .ok (value :: values)

def buildLinked (inputName : String) (inputDef : InputDefinition τ) (links : List NodeInputLinkValue) :
    Except String (Value α) :=
  if inputDef.allowMultipleConnections ∧ inputDef.isVariable then
    match mergeLinkedVariables c.nodeId inputName c.outputs links Dict.empty with
    | .error error => .error error
    | .ok linked => .ok (Dict.toValue linked)
  else if inputDef.allowMultipleConnections ∧ inputDef.isColumn then
    match linkOutputs c (fun link =>
        s!"Node {c.nodeId}: Missing Series output '{link.outputName}' from '{link.nodeId}'.") links with
    | .error error => .error error
    | .ok [column] => .ok column
    | .ok columns => .ok (.list columns)
  else if inputDef.allowMultipleConnections ∧ inputDef.isSignal then
    match linkOutputs c (missingOutput c.nodeId inputName) links with
    | .error error => .error error
    | .ok _ => .ok .none
  else
    match links with
    | [link] =>
      match c.outputs link.nodeId link.outputName with
      | none => .error (missingOutput c.nodeId inputName link)
      | some value => .ok value
    | _ => .error s!"Node {c.nodeId}: Input '{inputName}' does not allow multiple connections."

structure Building (α : Type) where
  kwargs : Dict String (Value α) := Dict.empty
  deferred : List (String × String) := []

variable (mode : ExecutionMode)

def wrapError (nodeId : String) (result : Except String (Value α)) : Except String (Value α) :=
  match result with
  | .error error => .error s!"Node {nodeId}: {error}"
  | .ok value => .ok value

def deferredTemplate (inputDef : InputDefinition τ) : Option (NodeInputValue α) → Option String
  | some (.expr text .template) => if inputDef.sqlTemplate then some text else none
  | _ => none

def buildInput (inputVariables projectVariables : Variables α) (state : Building α)
    (entry : String × NodeInput α) : Except String (Building α) :=
  match c.node.inputDefinitions.get? entry.1 with
  | none => .ok state
  | some inputDef =>
    match entry.2 with
    | .links first rest =>
      match buildLinked c entry.1 inputDef (first :: rest) with
      | .error error => .error error
      | .ok value => .ok { state with kwargs := state.kwargs.set entry.1 value }
    | .unlinked input =>
      match input.parse with
      | .error error => .error s!"Node {c.nodeId}: {error}"
      | .ok parsed =>
        match deferredTemplate inputDef parsed with
        | some text => .ok { state with deferred := state.deferred ++ [(entry.1, text)] }
        | none =>
          match wrapError c.nodeId (resolveNodeInputValue c.evaluator c.moment inputDef inputVariables
              projectVariables (mode = .metadataOnly) input) with
          | .error error => .error error
          | .ok value => .ok { state with kwargs := state.kwargs.set entry.1 value }

def renderDeferred (inputVariables projectVariables : Variables α) (connection : Option (Value α))
    (kwargs : Dict String (Value α)) (template : String × String) :
    Except String (Dict String (Value α)) :=
  match c.render c.moment connection template.2 inputVariables projectVariables with
  | .ok sql => .ok (kwargs.set template.1 (.text sql))
  | .error error =>
    if mode = .metadataOnly then .ok (kwargs.set template.1 (.unresolved error))
    else .error s!"Node {c.nodeId}: {error}"

def buildNodeKwargs (inputs : Dict String (NodeInput α)) (projectVariables : Variables α) :
    Except String (Dict String (Value α)) :=
  let inputs := c.node.runtimeInputs inputs
  match collectLinkedVariables c inputs with
  | .error error => .error error
  | .ok linkedVariables =>
    let inputVariables := projectVariables.update linkedVariables
    match inputs.entries.foldlM (buildInput c mode inputVariables projectVariables) {} with
    | .error error => .error error
    | .ok state => state.deferred.foldlM (renderDeferred c mode inputVariables
        projectVariables (state.kwargs.get? "connection")) state.kwargs

end

section

variable (evaluator : Evaluator α τ) (nodeId : String) (node : NodeClass α τ)

def mergeInputVariables (projectVariables : Variables α) : Option (Value α) → Variables α
  | some (.dict entries) => entries.foldl (fun target entry =>
      match entry.1 with
      | .text key => target.set key entry.2
      | _ => target) projectVariables
  | _ => projectVariables

def runtimeVariablesMap (projectVariables : Variables α) (kwargs : Dict String (Value α)) :
    Variables α :=
  mergeInputVariables projectVariables (kwargs.get? "input_variables")

/-- A single link is keyed by its source only. -/
def linkKey (link : NodeInputLinkValue) : Option (String × ℕ) → String
  | none => s!"{link.nodeId}.{link.outputName}"
  | some (inputName, index) => s!"{inputName}[{index}]:{link.nodeId}.{link.outputName}"

def placedLinks (inputName : String) :
    List NodeInputLinkValue → List (Option (String × ℕ) × NodeInputLinkValue)
  | [link] => [(none, link)]
  | links => links.mapIdx fun index link => (some (inputName, index), link)

abbrev OutputHashes := String → String → String

def gatherLinks (hashes : OutputHashes) (parentHashes : Dict String String)
    (entry : String × NodeInput α) : Dict String String :=
  (placedLinks entry.1 entry.2.linkValues).foldl (fun parentHashes (place, link) =>
    parentHashes.set (linkKey link place) (hashes link.nodeId link.outputName)) parentHashes

def resolveConstant (moment : ℕ) (mode : ExecutionMode) (runtimeVariables : Variables α)
    (name : String) (input : UnlinkedInput α) : Except String (Value α) :=
  resolveNodeInputValue evaluator moment (node.inputDefinitions.get? name) runtimeVariables Dict.empty
    (mode = .metadataOnly) input

def gatherConstant (moment : ℕ) (mode : ExecutionMode) (runtimeVariables : Variables α)
    (constants : Dict String (Value α)) (entry : String × NodeInput α) :
    Except String (Dict String (Value α)) :=
  match entry.2 with
  | .links _ _ => .ok constants
  | .unlinked input =>
    match wrapError nodeId (resolveConstant evaluator node moment mode runtimeVariables entry.1 input) with
    | .error error => .error error
    | .ok value => .ok (constants.set entry.1 value)

/-- Hashes are texts, empty where there is none. -/
def gatherParentHashesAndConstants (moment : ℕ) (mode : ExecutionMode) (hashes : OutputHashes)
    (inputs : Dict String (NodeInput α)) (runtimeVariables : Variables α) :
    Except String (Dict String String × Dict String (Value α)) :=
  match inputs.entries.foldlM (gatherConstant evaluator nodeId node moment mode runtimeVariables)
      Dict.empty with
  | .error error => .error error
  | .ok constants => .ok (inputs.entries.foldl (gatherLinks hashes) Dict.empty, constants)

def constantOf (moment : ℕ) (mode : ExecutionMode) (runtimeVariables : Variables α)
    (entry : String × NodeInput α) : Except String (Option (Value α)) :=
  match entry.2 with
  | .links _ _ => .ok none
  | .unlinked input =>
    (resolveConstant evaluator node moment mode runtimeVariables entry.1 input).map some

end

section

variable {evaluator : Evaluator α τ} {nodeId name : String} {node : NodeClass α τ} {moment : ℕ}
  {mode : ExecutionMode} {hashes : OutputHashes} {inputs : Dict String (NodeInput α)}
  {runtimeVariables : Variables α} {parentHashes : Dict String String}
  {constants : Dict String (Value α)} {input : UnlinkedInput α}

lemma gatherConstant_eq_ok {constants' : Dict String (Value α)} {entry : String × NodeInput α} :
    gatherConstant evaluator nodeId node moment mode runtimeVariables constants entry =
        .ok constants' ↔
      ∃ value, constantOf evaluator node moment mode runtimeVariables entry = .ok value ∧
        constants.put entry.1 value = constants' := by
  obtain ⟨name, input | ⟨first, rest⟩⟩ := entry
  · simp only [gatherConstant, constantOf]
    cases hvalue : resolveConstant evaluator node moment mode runtimeVariables name input with
    | error error => simp [wrapError, Except.map]
    | ok value => simp [wrapError, Except.map, Dict.put]
  · simp [gatherConstant, constantOf, Dict.put]

lemma gather_eq_ok : gatherParentHashesAndConstants evaluator nodeId node moment mode hashes inputs
      runtimeVariables = .ok (parentHashes, constants) ↔
    inputs.entries.foldl (gatherLinks hashes) Dict.empty = parentHashes ∧
      inputs.entries.foldlM (gatherConstant evaluator nodeId node moment mode runtimeVariables)
        Dict.empty = .ok constants := by
  rw [gatherParentHashesAndConstants]
  split <;> simp_all

section

variable (h : gatherParentHashesAndConstants evaluator nodeId node moment mode hashes inputs
  runtimeVariables = .ok (parentHashes, constants))

include h

lemma exists_constant (hmem : (name, .unlinked input) ∈ inputs.entries) :
    ∃ value, resolveConstant evaluator node moment mode runtimeVariables name input = .ok value ∧
      constants.get? name = some value := by
  obtain ⟨_, hvalue, hget⟩ := (get?_foldlM_put id _ (fun _ _ _ => gatherConstant_eq_ok.mp)
    inputs.nodup (gather_eq_ok.mp h).2 name).2 _ hmem rfl
  obtain ⟨value, hv, rfl⟩ := map_eq_ok.mp hvalue
  exact ⟨value, hv, hget⟩

end

lemma gather_of_resolves (nodeId : String) (hashes : OutputHashes)
    (h : ∀ name input, (name, .unlinked input) ∈ inputs.entries →
      ∃ value, resolveConstant evaluator node moment mode runtimeVariables name input = .ok value) :
    ∃ parentHashes constants, gatherParentHashesAndConstants evaluator nodeId node moment mode hashes
      inputs runtimeVariables = .ok (parentHashes, constants) := by
  have hs : ∀ constants, ∀ entry ∈ inputs.entries, ∃ constants', gatherConstant evaluator nodeId node
      moment mode runtimeVariables constants entry = .ok constants' := by
    rintro constants ⟨name, input | ⟨first, rest⟩⟩ hmem
    · obtain ⟨value, hvalue⟩ := h name input hmem
      exact ⟨_, gatherConstant_eq_ok.mpr ⟨some value, map_eq_ok.mpr ⟨value, hvalue, rfl⟩, rfl⟩⟩
    · exact ⟨constants, rfl⟩
  obtain ⟨constants, hc⟩ := foldlM_ok_of_forall hs Dict.empty
  exact ⟨_, constants, gather_eq_ok.mpr ⟨rfl, hc⟩⟩

end

end Dvt.Inputs
