import Dvt.Execution.Runs

/-! When the outputs that a node reads are there as its arguments are built. -/

namespace Dvt.Execution

open Library Pipelines List Dict Processor

variable {α τ : Type}

structure PipelineValidationResult where
  isValid : Bool
  errorMessage : Option String := none
  targetNodes : List String
  nodeErrors : List (String × String) := []

section

variable (P : Processor α τ) (isSubset : τ → τ → Bool) (typeText : τ → String)

def Processor.inputDefinition (data : NodeData) (inputName : String) :
    Option (Inputs.InputDefinition τ) :=
  (P.definition data.name).inputs.inputDefinitions.get? inputName

def Processor.validateLink (inputName : String) (inputDef : Inputs.InputDefinition τ)
    (link : NodeInputLinkValue) : Option String :=
  match P.task.pipeline.get? link.nodeId with
  | none => some s!"Source node ID={link.nodeId} for input Name={inputName} not found in pipeline."
  | some source =>
    match P.registry.get source.name with
    | none => some (nodeNotFound source.name)
    | some nodeClass =>
      let outputType := (P.definition source.name).outputType link.outputName
      if link.outputName ∉ nodeClass.outputNames then
        some (s!"Source output Name={link.outputName} not found on node ID={link.nodeId} " ++
          s!"(class Type={source.name}) for input Name={inputName}.")
      else if !isSubset outputType inputDef.type then
        some (s!"Type mismatch for input Name={inputName}. Expected compatible with " ++
          "IO_TYPE=" ++ typeText inputDef.type ++ " but got IO_TYPE='" ++ typeText outputType ++
          s!"' from '{link.nodeId}.{link.outputName}'.")
      else none

def Processor.rejoinedRouters (links : List NodeInputLinkValue) : List String :=
  let routers := links.filter fun link =>
    (P.task.pipeline.get? link.nodeId).any fun source =>
      (P.registry.get source.name).any fun nodeClass => !nodeClass.canBeOutputNode
  (routers.map NodeInputLinkValue.nodeId).dedup.filter fun id =>
    1 < ((routers.filter fun link => link.nodeId = id).map NodeInputLinkValue.outputName).dedup.length

def Processor.validateInput (data : NodeData) (entry : String × NodeRuntimeInputValue) :
    Option String :=
  match P.inputDefinition data entry.1 with
  | none => none
  | some inputDef =>
    let links := iterNodeInputLinkValues entry.2
    let routers := P.rejoinedRouters links
    if entry.1 = "signal_in" ∧ routers ≠ [] then
      some ("ConditionalSignalRouter outputs cannot be re-joined into a single signal_in. " ++
        "Invalid source node IDs: [" ++ quotedIds routers ++ "].")
    else links.findSome? (P.validateLink isSubset typeText entry.1 inputDef)

def Processor.validatePipeline : PipelineValidationResult :=
  let entries := P.task.pipeline.entries
  let targetNodes := (entries.filter fun entry =>
    (P.registry.get entry.2.name).any Pipelines.NodeClass.outputNode).map Prod.fst
  let unknown := entries.filterMap fun entry =>
    if P.registry.get entry.2.name = none then some (entry.1, nodeNotFound entry.2.name) else none
  let nodeErrors := entries.filterMap fun entry =>
    (entry.2.inputs.entries.findSome? (P.validateInput isSubset typeText entry.2)).map
      fun message => (entry.1, message)
  if entries = [] then { isValid := false, errorMessage := some "Pipeline is empty.", targetNodes := [] }
  else if unknown ≠ [] then
    { isValid := false, errorMessage := some "One or more node classes not found.", targetNodes,
      nodeErrors := unknown }
  else
    match topologicalSort P.task.pipeline none with
    | .error error =>
      { isValid := false, errorMessage := some (graphErrorText error), targetNodes }
    | .ok _ =>
      if nodeErrors ≠ [] then
        { isValid := false, errorMessage := some "Validation failed for one or multiple nodes.",
          targetNodes, nodeErrors }
      else { isValid := true, targetNodes }

end

section

variable (P : Processor α τ)

def Processor.Names (link : NodeInputLinkValue) : Prop :=
  ∃ source nodeClass, P.task.pipeline.get? link.nodeId = some source ∧
    P.registry.get source.name = some nodeClass ∧ link.outputName ∈ nodeClass.outputNames

def Processor.Serves (link : NodeInputLinkValue) : Prop := P.Names link ∧ ¬ P.LeftOut link.nodeId

def Available (outputs : Inputs.NodeOutputs α) (link : NodeInputLinkValue) : Prop :=
  (outputs link.nodeId link.outputName).isSome = true

def Processor.Fair (call : String × Inputs.NodeOutputs α) : Prop :=
  ∃ data, P.task.pipeline.get? call.1 = some data ∧
    ∀ link ∈ inputLinks data.inputs, Available call.2 link.2 ↔ P.Serves link.2

variable {P} {visit : Visit α} {s s' : State α} {n : String} {node : Node}
  {result : Except Raised NodeResult}

section

variable (h : Consistent P s)

include h

lemma available_iff_serves {link : NodeInputLinkValue}
    (hset : P.Settled s link.nodeId) (hski : link.nodeId ∉ s.skippedNodes) :
    Available s.nodesOutputs link ↔ P.Serves link := by
  rcases hset with hdone | hs | hi
  · obtain ⟨source, nodeClass, hdata, hclass, hpolicy, ho⟩ := h.outputs _ hdone
    rw [Available, ho]
    constructor
    · intro hname
      exact ⟨⟨source, nodeClass, hdata, hclass, hname⟩, fun hl => h.not_idle hdone (.inr hl)⟩
    · rintro ⟨⟨source', nodeClass', hdata', hclass', hname⟩, -⟩
      cases hdata.symm.trans hdata'
      cases hclass.symm.trans hclass'
      exact hname
  · exact absurd hs hski
  · have hn := (h.silent link.nodeId (fun hdone => h.not_idle hdone hi) link.outputName).1
    refine iff_of_false (by simp [Available, hn]) ?_
    rintro ⟨⟨source, _, hdata, _, _⟩, hl⟩
    rcases hi with hkey | hi
    · exact hkey (mem_keys.mpr ⟨source, hdata⟩)
    · exact hl hi

lemma fair_of_started (hready : P.Ready s node.id)
    (hstarted : Started P s node) : P.Fair (node.id, s.nodesOutputs) := by
  refine ⟨node.data, hstarted.data, fun link hl => ?_⟩
  have hmem := source_mem_gatherParentIds hl
  exact available_iff_serves h (hready _ hstarted.data _ hmem) (hstarted.parents _ hmem)

lemma fair_of_restored {cached : MetadataCacheEntry α}
    (hready : P.Ready s node.id) (hstarted : Started P s node) :
    P.Fair (node.id, (P.restoreEntry s node cached).nodesOutputs) := by
  have hg : Grows P s (P.restoreEntry s node cached) :=
    grows_restoreEntry hstarted.fresh hstarted.not_idle
  have hn := h.of_completes node hg hstarted.data hstarted.known hstarted.policy
    (completes_restoreEntry s node cached)
  refine ⟨node.data, hstarted.data, fun link hl => ?_⟩
  have hmem := source_mem_gatherParentIds hl
  exact available_iff_serves hn ((hready _ hstarted.data _ hmem).mono hg) (hstarted.parents _ hmem)

lemma NodeStep.fair (hready : P.Ready s n)
    (hf : ∀ call ∈ s.kwargsCalls, P.Fair call) (hstep : NodeStep P visit s n s' result) :
    ∀ call ∈ s'.kwargsCalls, P.Fair call := by
  have hadd : ∀ call, P.Fair call → ∀ c ∈ s.kwargsCalls ++ [call], P.Fair c := by
    intro call hcall c hc
    rcases mem_append.mp hc with hold | hnew
    · exact hf c hold
    · exact mem_singleton.mp hnew ▸ hcall
  cases hstep with
  | completed _ | unknown | hindered _ _ _ | leftOut _ => exact hf
  | attempted hid hstarted hattempt =>
    subst hid
    have hs := hadd _ (fair_of_started h hready hstarted)
    cases hattempt with
    | unprepared => exact hf
    | raised => exact hs
    | restoredEarly _ => exact hf
    | announced cached _ _ => exact hadd _ (fair_of_restored h hready hstarted)
    | restored _ _ | invalid _ _ _ | cancelled _ | recovered _ _ _ _ _ | failed _ _ _ _ _
    | broke _ _ _ _ | unfinished _ _ _ | executed _ _ _ _ => exact hs

end

lemma runRule_fair {W : World α} {s₀ : State α} (hs₀ : Unstarted s₀) : RunRule P W s₀
    (fun _ s _ => ∀ call ∈ s.kwargsCalls, P.Fair call)
    (fun _ s _ => ∀ call ∈ s.kwargsCalls, P.Fair call)
    (fun s _ => ∀ call ∈ s.kwargsCalls, P.Fair call) := by
  have hn : ∀ ids (s : State α), Restores s₀ ids s → ∀ call ∈ s.kwargsCalls, P.Fair call := by
    intro ids s hr
    rw [hr.kwargsCalls, hs₀.kwargsCalls]
    simp
  exact
    { frontier := fun ids s _ _ hr => hn ids s hr
      plan := fun ids s _ hr _ => hn ids s hr
      unordered := fun _ _ h => h
      prepassRaised := fun _ _ _ _ _ _ ht h hstep => hstep.fair ht.consistent ht.ready h
      prepassLeft := fun _ _ _ _ _ _ ht h hstep _ => hstep.fair ht.consistent ht.ready h
      prepassNext := fun _ _ _ _ _ _ ht h hstep _ _ =>
        hstep.fair ht.consistent ht.ready h
      turn := fun _ _ _ h => h
      stopped := fun _ _ _ h => h
      mainRaised := fun _ _ _ _ _ _ _ ht h hstep => hstep.fair ht.consistent ht.ready h
      mainLeft := fun _ _ _ _ _ _ _ ht h hstep _ => hstep.fair ht.consistent ht.ready h
      mainNext := fun _ _ _ _ _ _ _ ht h hstep _ _ =>
        hstep.fair ht.consistent ht.ready h
      finish := fun _ _ _ _ _ h => h }

lemma kwargsCalls_report (s : State α) (outcome : Except Raised Flags) :
    (report s outcome).1.kwargsCalls = s.kwargsCalls := by
  rw [report.eq_def]
  split
  · rfl
  · rfl
  · split
    · rfl
    · split
      · split <;> rfl
      · rfl

lemma fair_process (P : Processor α τ) (W : World α) :
    ∀ call ∈ (P.process W).1.kwargsCalls, P.Fair call := by
  rw [process]
  split
  · simp [State.call]
  · simp [State.call]
  · next first rest hsort =>
    have hs₀ := unstarted_initial (α := α) (first :: rest)
    rw [kwargsCalls_report]
    exact (runRule_fair hs₀).runTask hs₀ hsort

end

variable {P : Processor α τ} {isSubset : τ → τ → Bool} {typeText : τ → String}
variable {link : NodeInputLinkValue}

lemma names_of_validateLink {inputName : String} {inputDef : Inputs.InputDefinition τ}
    (h : P.validateLink isSubset typeText inputName inputDef link = none) : P.Names link := by
  rw [validateLink] at h
  split at h
  · cases h
  · next source hs =>
    split at h
    · cases h
    · next nodeClass hclass =>
      split at h
      · cases h
      · next hname => exact ⟨source, nodeClass, hs, hclass, not_not.mp hname⟩

variable {data : NodeData}

lemma names_of_valid (hv : (P.validatePipeline isSubset typeText).isValid = true) {n : String}
    (hdata : P.task.pipeline.get? n = some data)
    {link : String × NodeInputLinkValue} (hl : link ∈ inputLinks data.inputs)
    (hd : P.inputDefinition data link.1 ≠ none) : P.Names link.2 := by
  rw [validatePipeline] at hv
  split at hv
  · cases hv
  · split at hv
    · cases hv
    · split at hv
      · cases hv
      · split at hv
        · cases hv
        · next he =>
          obtain ⟨value, hvalue, hmem⟩ := mem_inputLinks.mp hl
          have hn := filterMap_eq_nil_iff.mp (not_not.mp he) (n, data) (get?_eq_some.mp hdata)
          rw [Option.map_eq_none_iff] at hn
          have hi := List.findSome?_eq_none_iff.mp hn (link.1, value) (get?_eq_some.mp hvalue)
          rw [validateInput] at hi
          split at hi
          · next hn => exact absurd hn hd
          · dsimp only at hi
            split at hi
            · cases hi
            · exact names_of_validateLink (List.findSome?_eq_none_iff.mp hi link.2 hmem)

/-- The arguments of a node are built with all the outputs it links to when none of them is of a
node that is left out, and no input unknown to its class links to an output that does not exist.
The second part is about the outputs whose absence raises. -/
theorem available_iff (P : Processor α τ) (W : World α)
    (hvalid : (P.validatePipeline isSubset typeText).isValid = true)
    (call : String × Inputs.NodeOutputs α) (hcall : call ∈ (P.process W).1.kwargsCalls) :
    ∃ data, P.task.pipeline.get? call.1 = some data ∧
      ((∀ link ∈ inputLinks data.inputs, Available call.2 link.2) ↔
        ∀ link ∈ inputLinks data.inputs, ¬ P.LeftOut link.2.nodeId ∧
          (P.inputDefinition data link.1 = none → P.Names link.2)) ∧
      ((∀ link ∈ inputLinks data.inputs, P.inputDefinition data link.1 ≠ none →
          Available call.2 link.2) ↔
        ∀ link ∈ inputLinks data.inputs, P.inputDefinition data link.1 ≠ none →
          ¬ P.LeftOut link.2.nodeId) := by
  obtain ⟨data, hdata, hfair⟩ := fair_process P W call hcall
  have hdefined : ∀ link ∈ inputLinks data.inputs, P.inputDefinition data link.1 ≠ none →
      (Available call.2 link.2 ↔ ¬ P.LeftOut link.2.nodeId) := by
    intro link hlink hne
    rw [hfair link hlink]
    exact ⟨fun h => h.2, fun h => ⟨names_of_valid hvalid hdata hlink hne, h⟩⟩
  refine ⟨data, hdata, forall₂_congr fun link hlink => ?_, ?_⟩
  · by_cases hne : P.inputDefinition data link.1 = none
    · rw [hfair link hlink]
      exact ⟨fun h => ⟨h.2, fun _ => h.1⟩, fun h => ⟨h.2 hne, h.1⟩⟩
    · rw [hdefined link hlink hne]
      exact ⟨fun h => ⟨h, fun hnone => absurd hnone hne⟩, fun h => h.1⟩
  · exact forall₃_congr fun link hlink hne => hdefined link hlink hne

def variablesPipeline (sourceName : String) : Pipeline :=
  (Dict.empty.set "source" ⟨sourceName, false, .empty⟩).set "load" ⟨"LoadCSV", false,
    Dict.empty.set "input_variables" (.links [⟨"source", "output_variables"⟩])⟩

def calmWorld : World Bool where
  caches _ := .empty
  restoredOutput _ _ := .none
  visit _ _ := {}

theorem available_variablesPipeline :
    ((sampleProcessor (variablesPipeline "LoadCSV")).validatePipeline (fun _ _ => true)
        fun _ => "").isValid = true ∧
      ∃ call ∈ ((sampleProcessor (variablesPipeline "LoadCSV")).process calmWorld).1.kwargsCalls,
        call.1 = "load" ∧ Available call.2 ⟨"source", "output_variables"⟩ := by
  have hvalid : ((sampleProcessor (variablesPipeline "LoadCSV")).validatePipeline (fun _ _ => true)
      fun _ => "").isValid = true := by decide +kernel
  have hcalls : ((sampleProcessor (variablesPipeline "LoadCSV")).process
      calmWorld).1.kwargsCalls.map Prod.fst = ["source", "load"] := by decide +kernel
  have hload : "load" ∈ ((sampleProcessor (variablesPipeline "LoadCSV")).process
      calmWorld).1.kwargsCalls.map Prod.fst := by simp [hcalls]
  obtain ⟨call, hcall, hid⟩ := mem_map.mp hload
  obtain ⟨data, hdata, -, hdefined⟩ := available_iff _ calmWorld hvalid call hcall
  have hget : (variablesPipeline "LoadCSV").get? "load" = some ⟨"LoadCSV", false,
      Dict.empty.set "input_variables" (.links [⟨"source", "output_variables"⟩])⟩ := by decide +kernel
  rw [hid] at hdata
  cases hget.symm.trans hdata
  refine ⟨hvalid, call, hcall, hid, hdefined.mpr ?_ ("input_variables", _) ?_ ?_⟩
  · rintro link - - ⟨source, nodeClass, hsource, hclass, hpolicy⟩
    have hnames : ∀ data ∈ (variablesPipeline "LoadCSV").values, data.name = "LoadCSV" := by
      decide +kernel
    have hname := hnames source (mem_values.mpr ⟨_, hsource⟩)
    rw [hname] at hclass
    cases hclass
    exact absurd hpolicy (by decide +kernel)
  · decide +kernel
  · exact Option.isSome_iff_ne_none.mp (by decide +kernel)

theorem not_available_variablesPipeline :
    ((sampleProcessor (variablesPipeline "SaveCSV")).validatePipeline (fun _ _ => true)
        fun _ => "").isValid = true ∧
      ((sampleProcessor (variablesPipeline "SaveCSV")).process calmWorld).1.kwargsCalls.map
        (fun call => (call.1, (call.2 "source" "output_variables").isSome)) = [("load", false)] ∧
      ((sampleProcessor (variablesPipeline "SaveCSV")).process calmWorld).2 = ⟨false,
        some ("Node load: Missing output 'output_variables' from source node 'source' " ++
          "for input 'input_variables'.")⟩ := by
  decide +kernel

end Dvt.Execution
