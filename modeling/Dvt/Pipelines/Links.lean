import Dvt.Pipelines.Build

/-! The links of the built pipeline against the edges. -/

namespace Dvt.Pipelines

open Library List

/-- An identifier has no hyphen. -/
def IsFieldName (name : String) : Prop := name ≠ "" ∧ '-' ∉ name.toList

structure Wire where
  source : String
  output : String
  target : String
  input : String
  source_ne : source ≠ ""
  isOutput : IsFieldName output
  isInput : IsFieldName input

namespace Wire

def record (w : Wire) : GraphEdgeRecord :=
  ⟨w.source, some ("output-" ++ w.output), w.target, some ("input-" ++ w.input)⟩

def link (w : Wire) : NodeInputLinkValue := ⟨w.source, w.output⟩

end Wire

def incoming (wires : List Wire) (nodeId handle : String) : List NodeInputLinkValue :=
  (wires.filter fun w => w.target = nodeId ∧ w.input = handle).map Wire.link

def constantOrExpression : NodeRuntimeInputValue → Option NodeRuntimeInputValue
  | .const value => some (.const value)
  | .expr value kind => some (.expr value kind)
  | _ => none

variable {pattern cs : List Char}

lemma eraseOccurrences_skip (p : List Char) :
    eraseOccurrences pattern p.length (p ++ cs) = eraseOccurrences pattern 0 cs := by
  induction p with
  | nil => rfl
  | cons c p ih => exact ih

lemma eraseOccurrences_of_notMem (hp : '-' ∈ pattern) (h : '-' ∉ cs) :
    eraseOccurrences pattern 0 cs = cs := by
  induction cs with
  | nil => rfl
  | cons c cs ih =>
    rw [eraseOccurrences, if_neg fun hpre => h (hpre.subset hp),
      ih fun hmem => h (mem_cons_of_mem c hmem)]

lemma removeText_append {pattern name : String} {c : Char} {p : List Char}
    (hp : pattern.toList = c :: p) (hyphen : '-' ∈ pattern.toList) (hname : IsFieldName name) :
    removeText pattern (pattern ++ name) = name := by
  have hpre : c :: p <+: c :: (p ++ name.toList) := prefix_append (c :: p) name.toList
  rw [removeText, String.toList_append, hp, cons_append, eraseOccurrences, if_pos hpre, length_cons,
    Nat.add_sub_cancel, eraseOccurrences_skip, ← hp,
    eraseOccurrences_of_notMem hyphen hname.2, String.ofList_toList]

lemma linkInto_record (w : Wire) (handle : String) :
    linkInto handle w.record = if w.input = handle then some w.link else none := by
  have hin : removeText "input-" ("input-" ++ w.input) = w.input :=
    removeText_append rfl (by decide) w.isInput
  have hout : removeText "output-" ("output-" ++ w.output) = w.output :=
    removeText_append rfl (by decide) w.isOutput
  simp [linkInto, linkHandles, Wire.record, hin, hout, w.isInput.1, w.isOutput.1, Wire.link]

lemma linksInto_record (wires : List Wire) (nodeId handle : String) :
    (linksInto handle ((wires.map Wire.record).filter fun e => e.target = nodeId)).filter
      (·.nodeId ≠ "") = incoming wires nodeId handle := by
  induction wires with
  | nil => rfl
  | cons w wires ih =>
    have hs : w.link.nodeId ≠ "" := w.source_ne
    have hr : w.record.target = w.target := rfl
    rw [linksInto, incoming] at ih ⊢
    by_cases ht : w.target = nodeId <;> by_cases hi : w.input = handle <;>
      simp_all [linkInto_record]

variable {reg : Registry} {wires : List Wire} {node : GraphNodeRecord}

structure WiredInput (reg : Registry) (wires : List Wire) (node : GraphNodeRecord) (handle : String)
    (value : Option NodeRuntimeInputValue) : Prop where
  links : existingLinks value =
    if allowsMultipleConnections reg node.name handle then incoming wires node.uiId handle
    else (incoming wires node.uiId handle).getLast?.toList
  stored : incoming wires node.uiId handle = [] →
    value = ((node.inputValues.get? handle).bind id).bind constantOrExpression

lemma wiredInput_toNodeData (hl : ∀ v ∈ node.inputValues.values, isLinkList v = false)
    (handle : String) :
    WiredInput reg wires node handle
      ((toNodeData reg (wires.map Wire.record) node).inputs.get? handle) := by
  have hn : existingLinks ((node.inputValues.get? handle).bind storedValue) = [] :=
    existingLinks_stored hl
  rw [toNodeData_get?, linksInto_record]
  constructor
  · cases allowsMultipleConnections reg node.name handle with
    | true => exact existingLinks_foldl_attach _ hn
    | false =>
      rw [foldl_attach_single]
      cases (incoming wires node.uiId handle).getLast? with
      | none => exact hn
      | some link => rfl
  · intro he
    rw [he]
    cases hget : node.inputValues.get? handle with
    | none => rfl
    | some value =>
      have hnot := hl value (Dict.mem_values.mpr ⟨handle, hget⟩)
      obtain _ | (_ | _ | _ | _) := value <;> first | rfl | cases hnot

structure LinksAreEdges (reg : Registry) (nodes : List GraphNodeRecord) (wires : List Wire)
    (targetNodes : List String) (pipeline : Pipeline) : Prop where
  inputs : ∀ node ∈ nodes,
    (∀ other ∈ nodes, HasOutput reg (wires.map Wire.record) targetNodes other →
      resolveServiceOutputNodeId other.uiId targetNodes ≠ node.uiId) →
    ∃ data, pipeline.get? node.uiId = some data ∧ data.name = node.name ∧
      ∀ handle, WiredInput reg wires node handle (data.inputs.get? handle)
  links : ∀ k data, pipeline.get? k = some data →
    (∃ node ∈ nodes, HasOutput reg (wires.map Wire.record) targetNodes node ∧
      resolveServiceOutputNodeId node.uiId targetNodes = k ∧ data = serviceNode reg node) ∨
    ∀ handle, ∀ l ∈ existingLinks (data.inputs.get? handle), l ∈ incoming wires k handle

theorem linksAreEdges_of_build (reg : Registry) {nodes : List GraphNodeRecord} (wires : List Wire)
    {targetNodes : List String} {pipeline : Pipeline}
    (hnodup : (nodes.map GraphNodeRecord.uiId).Nodup)
    (hlist : ∀ node ∈ nodes, ∀ v ∈ node.inputValues.values, isLinkList v = false)
    (hbuild : buildPipelineFromGraph reg nodes (wires.map Wire.record) targetNodes =
      some pipeline) :
    LinksAreEdges reg nodes wires targetNodes pipeline := by
  refine ⟨fun node hnode hfree => ?_, fun k data hdata => ?_⟩
  · exact ⟨_, (build_get?_iff hnodup hbuild).mpr (.inr ⟨hfree, node, hnode, rfl, rfl⟩), rfl,
      wiredInput_toNodeData (hlist node hnode)⟩
  · obtain ⟨node, hnode, hout, hid, rfl⟩ | ⟨-, node, hnode, rfl, rfl⟩ :=
      (build_get?_iff hnodup hbuild).mp hdata
    · exact .inl ⟨node, hnode, hout, hid, rfl⟩
    · refine .inr fun handle l hl => ?_
      rw [(wiredInput_toNodeData (hlist node hnode) handle).links] at hl
      split at hl
      · exact hl
      · exact mem_of_getLast? (Option.mem_toList.mp hl)

def mergeRegistry : Registry where
  get name := if name = "ServiceOutputNode" then
      some { className := name, outputNames := [], outputNode := true, runtimeFingerprint := "" }
    else if name = "Merge" then
      some { className := name, outputNames := ["output"], multipleConnections := ["frames"],
             runtimeFingerprint := "" }
    else none
  serviceOutput := rfl

def mergeNode (uiId : String) (value : NodeRuntimeInputValue) : GraphNodeRecord where
  uiId
  type := "node"
  name := "Merge"
  inputValues := Dict.empty.set "frames" (some value)
  storeEnabled := false

def sampleWire : Wire :=
  ⟨"a", "output", "b", "frames", by decide, ⟨by decide, by decide⟩, ⟨by decide, by decide⟩⟩

theorem linksAreEdges_sample : ∃ pipeline, LinksAreEdges mergeRegistry
      [mergeNode "a" (.const "1"), mergeNode "b" (.link ⟨"c", "output"⟩)] [sampleWire] [] pipeline :=
  ⟨_, linksAreEdges_of_build mergeRegistry [sampleWire] (by decide) (by decide) rfl⟩

/-- The link of a service output is no edge. -/
theorem links_without_edges : ∃ pipeline service,
    buildPipelineFromGraph mergeRegistry [mergeNode "a" (.const "1")] [] [] = some pipeline ∧
      pipeline.get? "__service_output_a__" = some service ∧
      existingLinks (service.inputs.get? "input") = [⟨"a", "output"⟩] :=
  ⟨_, _, rfl, rfl, rfl⟩

end Dvt.Pipelines
