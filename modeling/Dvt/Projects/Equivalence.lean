import Dvt.Pipelines.Build
import Dvt.Projects.Renaming

/-! The pipeline of a copied project against that of the project. -/

namespace Dvt.Projects

open Library Pipelines Dict NodeRow
open List hiding attach

/-- A copy, and the build of the project and of its copy for some target nodes. -/
structure Comparison extends Copying where
  reg : Registry
  dumps : Json → String
  targetNodes : List String

open Copying Comparison

variable {c : Comparison} {copied : CopiedProject} {row row' : NodeRow} {id : String}

section

variable (dumps : Json → String)

def StoredInput.toRuntime : StoredInput → NodeRuntimeInputValue
  | .expr value kind => .expr value kind
  | .const value => .const (dumps value)
  | .link value => .link value

def NodeRow.toRecord (row : NodeRow) : GraphNodeRecord where
  uiId := row.uiId
  type := row.type
  name := row.name
  inputValues := row.inputValues.mapValues (Option.map (StoredInput.toRuntime dumps))
  storeEnabled := row.storeEnabled.getD false

def edgeRecords (edges : List EdgeRow) : List GraphEdgeRecord := edges.map EdgeRow.toGraphEdgeRecord

def Comparison.buildPipeline (c : Comparison) (nodes : List NodeRow) (edges : List EdgeRow)
    (targetNodes : List String) : Option Pipeline :=
  buildPipelineFromGraph c.reg (nodes.map (toRecord c.dumps)) (edgeRecords edges) targetNodes

end

def renameLink (rename : String → String) (link : NodeInputLinkValue) : NodeInputLinkValue :=
  ⟨rename link.nodeId, link.outputName⟩

def renameValue (rename : String → String) : NodeRuntimeInputValue → NodeRuntimeInputValue
  | .expr value kind => .expr value kind
  | .const value => .const value
  | .link link => .link (renameLink rename link)
  | .links links => .links (links.map (renameLink rename))

def SameInput (rename : String → String) (excepted : Prop)
    (value value' : Option NodeRuntimeInputValue) : Prop :=
  value' = value.map (renameValue rename) ∨
    excepted ∧ ∃ text text', value = some (.const text) ∧ value' = some (.const text')

structure SameData (rename : String → String) (excepted : String → Prop) (data data' : NodeData) :
    Prop where
  name : data'.name = data.name
  storeEnabled : data'.storeEnabled = data.storeEnabled
  inputs : ∀ input, SameInput rename (excepted input) (data.inputs.get? input)
    (data'.inputs.get? input)

def ServiceFilesInput (c : Comparison) (id input : String) : Prop :=
  input = "connection" ∧ ∃ row ∈ c.nodes, row.uiId = id ∧
    (extractDvtServiceFilesConnection row.inputValues).isSome

def serviceOutputId (id : String) : String := "__service_output_" ++ id ++ "__"

namespace Comparison

variable (c : Comparison)

def renameKey (key : String) : String :=
  match c.nodeUiIdMap.get? key with
  | some newId => newId
  | none =>
    match c.nodes.find? fun row => serviceOutputId row.uiId = key with
    | some row => serviceOutputId (c.newUiId row.uiId)
    | none => key

def copiedTargets : List String := (normalizeTargetNodes c.targetNodes).map c.newUiId

def serviceId (id : String) : String := resolveServiceOutputNodeId id c.targetNodes

def copiedServiceId (id : String) : String :=
  resolveServiceOutputNodeId (c.newUiId id) c.copiedTargets

def copiedEdges : List GraphEdgeRecord := edgeRecords (c.edges.map c.copyEdge)

def incomingLinks (row : NodeRow) (handle : String) : List NodeInputLinkValue :=
  linksInto handle ((edgeRecords c.edges).filter fun e => e.target = row.uiId)

def nodeData (row : NodeRow) : NodeData := toNodeData c.reg (edgeRecords c.edges) (row.toRecord c.dumps)

def copiedData (row : NodeRow) : NodeData := toNodeData c.reg c.copiedEdges (row.toRecord c.dumps)

def serviceData (row : NodeRow) : NodeData := serviceNode c.reg (row.toRecord c.dumps)

end Comparison

structure Isomorphic (c : Comparison) (pipeline pipeline' : Pipeline) : Prop where
  injective : ∀ k ∈ pipeline.keys, ∀ l ∈ pipeline.keys, c.renameKey k = c.renameKey l → k = l
  keys : ∀ k', k' ∈ pipeline'.keys ↔ ∃ k ∈ pipeline.keys, c.renameKey k = k'
  data : ∀ k data data', pipeline.get? k = some data → pipeline'.get? (c.renameKey k) = some data' →
    SameData c.renameKey (ServiceFilesInput c k) data data'

def Referenced (nodes : List NodeRow) (edges : List EdgeRow) (subgraphs : List String) : Prop :=
  (∀ row ∈ edges, row.source ∈ nodes.map uiId ∧ row.target ∈ nodes.map uiId ∧
    ∀ id ∈ row.subgraphId, id ∈ subgraphs) ∧
  ∀ row ∈ nodes, ∀ id ∈ row.subgraphId, id ∈ subgraphs

structure ExecutionEquivalent (c : Comparison) (copied : CopiedProject) : Prop where
  references : Referenced copied.nodes copied.edges copied.subgraphs
  pipelines :
    match c.buildPipeline c.nodes c.edges c.targetNodes,
      c.buildPipeline copied.nodes copied.edges c.copiedTargets with
    | some pipeline, some pipeline' => Isomorphic c pipeline pipeline'
    | none, none => True
    | _, _ => False

section

variable (c : Comparison)

def RefusedTarget : Prop :=
  ∃ row ∈ c.nodes, row.type ≠ "widget" ∧ row.uiId ∈ normalizeTargetNodes c.targetNodes ∧
    (c.reg.get row.name).any fun nodeClass => !nodeClass.canBeOutputNode

def HasServiceOutput (row : NodeRow) : Prop :=
  HasOutput c.reg (edgeRecords c.edges) c.targetNodes (row.toRecord fun _ => "")

/-- The node with the empty id, whose edges the build leaves out, gives no link. -/
def SourcesNamed (row : NodeRow) (handle : String) : Prop :=
  if allowsMultipleConnections c.reg row.name handle then
    ∀ link ∈ c.incomingLinks row handle, link.nodeId ≠ ""
  else ∀ link ∈ (c.incomingLinks row handle).getLast?, link.nodeId ≠ ""

def ServiceKeysApart : Prop :=
  ∀ row ∈ c.nodes, HasServiceOutput c row → c.serviceId row.uiId ∉ c.nodes.map uiId

structure CopiesFaithfully : Prop where
  references : Referenced c.nodes c.edges c.subgraphs
  pipeline : RefusedTarget c ∨ (∀ row ∈ c.nodes, row.storeEnabled ≠ some true) ∧
    ServiceKeysApart c ∧ ∀ row ∈ c.nodes, ∀ handle, SourcesNamed c row handle

structure Fresh : Prop where
  nodes : ∀ row ∈ c.nodes, ∀ i, row.uiId ≠ c.newNodeUiId i
  sources : ∀ row ∈ c.edges, ∀ i, row.source ≠ c.newNodeUiId i
  targets : ∀ row ∈ c.edges, ∀ i, row.target ≠ c.newNodeUiId i
  targetNodes : ∀ id ∈ c.targetNodes, ∀ i, id ≠ c.newNodeUiId i
  nodeSubgraphs : ∀ row ∈ c.nodes, ∀ i, row.subgraphId ≠ some (c.newSubgraphUiId i)
  edgeSubgraphs : ∀ row ∈ c.edges, ∀ i, row.subgraphId ≠ some (c.newSubgraphUiId i)

end

section

variable {rename : String → String} {excepted : Prop} {value value' : Option NodeRuntimeInputValue}
  {links : List NodeInputLinkValue}

lemma existingLinks_rename (value : Option NodeRuntimeInputValue) :
    existingLinks (value.map (renameValue rename)) =
      (existingLinks value).map (renameLink rename) := by
  cases value with
  | none => rfl
  | some value => cases value <;> rfl

lemma SameInput.existingLinks_eq (h : SameInput rename excepted value value') :
    existingLinks value' = (existingLinks value).map (renameLink rename) := by
  rcases h with rfl | ⟨-, text, text', rfl, rfl⟩
  · exact existingLinks_rename value
  · rfl

lemma foldl_attach_rename (multiple : Bool) (links : List NodeInputLinkValue)
    (hne : links ≠ []) (hv : existingLinks value = []) (hv' : existingLinks value' = []) :
    (links.map (renameLink rename)).foldl (attach multiple) value' =
      (links.foldl (attach multiple) value).map (renameValue rename) := by
  induction links using reverseRecOn with
  | nil => exact absurd rfl hne
  | append_singleton links link ih =>
    rw [map_append, foldl_append, foldl_append, map_singleton, foldl_cons,
      foldl_nil, foldl_cons, foldl_nil, attach, attach, Option.map_some]
    have hl : existingLinks ((links.map (renameLink rename)).foldl (attach multiple) value') =
        (existingLinks (links.foldl (attach multiple) value)).map (renameLink rename) := by
      by_cases hnil : links = []
      · simp [hnil, hv, hv']
      · rw [ih hnil, existingLinks_rename]
    rw [hl]
    by_cases hc : multiple ∧ existingLinks (links.foldl (attach multiple) value) ≠ []
    · have hc' : multiple ∧ (existingLinks (links.foldl (attach multiple) value)).map
          (renameLink rename) ≠ [] := by simpa using hc
      rw [if_pos hc, if_pos hc', renameValue, map_append, map_singleton]
    · have hc' : ¬ (multiple ∧ (existingLinks (links.foldl (attach multiple) value)).map
          (renameLink rename) ≠ []) := by simpa using hc
      rw [if_neg hc, if_neg hc']
      rfl

variable (hbase : SameInput rename excepted value value') (hv : existingLinks value = [])
  (hinj : ∀ a ∈ links, ∀ b ∈ links, rename a.nodeId = rename b.nodeId → a.nodeId = b.nodeId)

include hbase hv

lemma sameInput_foldl_attach (multiple : Bool) (links : List NodeInputLinkValue) :
    SameInput rename excepted (links.foldl (attach multiple) value)
      ((links.map (renameLink rename)).foldl (attach multiple) value') := by
  by_cases hne : links = []
  · rw [hne]
    exact hbase
  · refine .inl (foldl_attach_rename multiple links hne hv ?_)
    rw [hbase.existingLinks_eq, hv, map_nil]

lemma sameInput_multiple_iff :
    SameInput rename excepted ((links.filter (·.nodeId ≠ "")).foldl (attach true) value)
      ((links.map (renameLink rename)).foldl (attach true) value') ↔
        ∀ link ∈ links, link.nodeId ≠ "" := by
  have hv' : existingLinks value' = [] := by rw [hbase.existingLinks_eq, hv, map_nil]
  constructor
  · intro h
    have hl := congrArg length h.existingLinks_eq
    rw [existingLinks_foldl_attach _ hv, existingLinks_foldl_attach _ hv', length_map,
      length_map, eq_comm] at hl
    simpa using hl
  · intro h
    rw [filter_eq_self.mpr (by simpa using h)]
    exact sameInput_foldl_attach hbase hv true links

include hinj

lemma sameInput_single_iff :
    SameInput rename excepted ((links.filter (·.nodeId ≠ "")).foldl (attach false) value)
      ((links.map (renameLink rename)).foldl (attach false) value') ↔
        ∀ link ∈ links.getLast?, link.nodeId ≠ "" := by
  induction links using reverseRecOn with
  | nil => simpa using hbase
  | append_singleton links last _ =>
    rw [foldl_attach_single, foldl_attach_single, map_append, map_singleton,
      getLast?_concat, getLast?_concat, filter_append, Option.map_some]
    have hall : (∀ link ∈ some last, link.nodeId ≠ "") ↔ last.nodeId ≠ "" := by simp
    rw [hall]
    constructor
    · intro h he
      have hf : [last].filter (·.nodeId ≠ "") = [] := by simp [he]
      rw [hf, append_nil] at h
      have hl := h.existingLinks_eq
      cases hk : (links.filter (·.nodeId ≠ "")).getLast? with
      | none =>
        rw [hk, Option.map_none, Option.none_or, hv] at hl
        cases hl
      | some link =>
        rw [hk] at hl
        obtain ⟨hmem, hne⟩ := mem_filter.mp (mem_of_getLast? hk)
        have hid : rename last.nodeId = rename link.nodeId := by
          have hlink := (cons.inj hl).1
          exact congrArg NodeInputLinkValue.nodeId hlink
        have hs := hinj last (by simp) link (by simp [hmem]) hid
        rw [he] at hs
        simp [← hs] at hne
    · intro hne
      have hf : [last].filter (·.nodeId ≠ "") = [last] := by simp [hne]
      rw [hf, getLast?_concat]
      exact .inl rfl

end

section

variable {pair : Option (Text × Text)} {newId : String}

structure CopiedRow (c : Comparison) (row row' : NodeRow) : Prop where
  uiId : row'.uiId = c.newUiId row.uiId
  type : row'.type = row.type
  name : row'.name = row.name
  storeEnabled : row'.storeEnabled = some false
  subgraphId : row'.subgraphId = row.subgraphId.map (relink c.subgraphUiIdMap)
  inputs : ∀ input, row'.inputValues.get? input = row.inputValues.get? input ∨
    (input = "connection" ∧ (extractDvtServiceFilesConnection row.inputValues).isSome) ∧
      ∃ value value', row.inputValues.get? input = some (some (.const value)) ∧
        row'.inputValues.get? input = some (some (.const value'))

lemma copiedRow_of_copiedNode (h : c.copiedNode row = some (row', pair)) :
    CopiedRow c row row' := by
  obtain ⟨rewritten, hr, h⟩ := Option.map_eq_some_iff.mp h
  cases h
  refine ⟨rfl, rfl, rfl, rfl, rfl, fun input => ?_⟩
  rw [rewriteDvtServiceFilesInputValues] at hr
  split at hr
  · cases hr
    exact .inl rfl
  · next fields hs =>
    obtain ⟨connection, hc, rfl⟩ := Option.map_eq_some_iff.mp hr
    by_cases hi : input = "connection"
    · subst hi
      refine .inr ⟨⟨rfl, by rw [hs]; rfl⟩, .obj fields, .obj connection.fields, ?_, ?_⟩
      · rw [extractDvtServiceFilesConnection] at hs
        split at hs
        · next hget =>
          split_ifs at hs
          cases hs
          exact hget
        · cases hs
      · exact (get?_set ..).trans (if_pos rfl)
    · left
      exact (get?_set ..).trans (if_neg hi)

variable (hcopies : Copies c.toCopying copied)

include hcopies

lemma Copies.copy (hrow : row ∈ c.nodes) : ∃ row' ∈ copied.nodes, CopiedRow c row row' := by
  obtain ⟨row', pair, hrows, hc⟩ := hcopies.exists_copy hrow
  exact ⟨row', (List.of_mem_zip hrows).2, copiedRow_of_copiedNode hc⟩

lemma Copies.original (hrow' : row' ∈ copied.nodes) : ∃ row ∈ c.nodes, CopiedRow c row row' := by
  obtain ⟨row, hrow, pair, hc⟩ := hcopies.exists_original hrow'
  exact ⟨row, hrow, copiedRow_of_copiedNode hc⟩

lemma Copies.uiIds : copied.nodes.map uiId = (c.nodes.map uiId).map c.newUiId := by
  rw [map_map, eq_comm, ← forall₂_eq_eq_eq, forall₂_map_left_iff, forall₂_map_right_iff]
  exact hcopies.nodes.imp fun row row' ⟨_, hc⟩ => (copiedRow_of_copiedNode hc).uiId.symm

lemma Copies.referenced_iff (hfresh : Fresh c) :
    Referenced copied.nodes copied.edges copied.subgraphs ↔
      Referenced c.nodes c.edges c.subgraphs := by
  have hs : ∀ subgraphId : Option String, (∀ i, subgraphId ≠ some (c.newSubgraphUiId i)) →
      ((∀ id ∈ subgraphId.map (relink c.subgraphUiIdMap), id ∈ copied.subgraphs) ↔
        ∀ id ∈ subgraphId, id ∈ c.subgraphs) := by
    intro subgraphId hne
    cases subgraphId with
    | none => simp
    | some id =>
      rw [hcopies.subgraphs]
      simpa [subgraphUiIdMap] using relink_mem_iff c.nodup_subgraphs
        fun i heq => hne i (congrArg some heq)
  refine and_congr ?_ ⟨fun h row hrow => ?_, fun h row' hrow' => ?_⟩
  · rw [hcopies.edges, forall_mem_map, hcopies.uiIds]
    refine forall₂_congr fun row hrow => and_congr ?_ (and_congr ?_ ?_)
    · exact relink_mem_iff c.nodup_nodes (hfresh.sources row hrow)
    · exact relink_mem_iff c.nodup_nodes (hfresh.targets row hrow)
    · exact hs row.subgraphId (hfresh.edgeSubgraphs row hrow)
  · obtain ⟨row', hrow', hc⟩ := hcopies.copy hrow
    have hcopy := h row' hrow'
    rw [hc.subgraphId] at hcopy
    exact (hs row.subgraphId (hfresh.nodeSubgraphs row hrow)).mp hcopy
  · obtain ⟨row, hrow, hc⟩ := hcopies.original hrow'
    rw [hc.subgraphId]
    exact (hs row.subgraphId (hfresh.nodeSubgraphs row hrow)).mpr (h row hrow)

end

section

variable {handle : String}

lemma renameKey_uiId (hid : id ∈ c.nodes.map uiId) : c.renameKey id = c.newUiId id := by
  obtain ⟨i, hi⟩ := mem_iff_getElem?.mp hid
  rw [renameKey, newUiId, relink, nodeUiIdMap, (uiIdMap_get? c.nodup_nodes).mpr ⟨i, hi, rfl⟩]
  rfl

def storedInput (dumps : Json → String) (row : NodeRow) (input : String) :
    Option NodeRuntimeInputValue :=
  ((row.inputValues.get? input).map (Option.map (StoredInput.toRuntime dumps))).bind storedValue

lemma toNodeData_get? (edges : List GraphEdgeRecord) :
    (toNodeData c.reg edges (row.toRecord c.dumps)).inputs.get? handle =
      ((linksInto handle (edges.filter fun e => e.target = row.uiId)).filter (·.nodeId ≠ "")).foldl
        (attach (allowsMultipleConnections c.reg row.name handle)) (storedInput c.dumps row handle) := by
  rw [storedInput, ← get?_mapValues]
  exact (foldl_connect_get? _).trans (by rw [storedInputs_get?]; rfl)

lemma storedInput_plain (dumps : Json → String) (rename : String → String) (row : NodeRow) (input : String) :
    existingLinks (storedInput dumps row input) = [] ∧
      (storedInput dumps row input).map (renameValue rename) = storedInput dumps row input := by
  rw [storedInput]
  rcases row.inputValues.get? input with - | - | value
  · exact ⟨rfl, rfl⟩
  · exact ⟨rfl, rfl⟩
  · cases value <;> exact ⟨rfl, rfl⟩

lemma CopiedRow.sameInput (h : CopiedRow c row row')
    (hrow : row ∈ c.nodes) (rename : String → String) (input : String) :
    SameInput rename (ServiceFilesInput c row.uiId input) (storedInput c.dumps row input)
      (storedInput c.dumps row' input) := by
  rcases h.inputs input with hsame | ⟨⟨hi, hs⟩, value, value', hv, hv'⟩
  · left
    rw [(storedInput_plain c.dumps rename row input).2, storedInput, storedInput, hsame]
  · right
    refine ⟨⟨hi, row, hrow, rfl, hs⟩, c.dumps value, c.dumps value', ?_, ?_⟩
    · rw [storedInput, hv]
      rfl
    · rw [storedInput, hv']
      rfl

lemma source_of_mem_incomingLinks {link : NodeInputLinkValue}
    (h : link ∈ c.incomingLinks row handle) :
    ∃ edge ∈ c.edges, edge.source = link.nodeId := by
  obtain ⟨record, hr, hl⟩ := mem_filterMap.mp h
  obtain ⟨edge, he, rfl⟩ := mem_map.mp (mem_filter.mp hr).1
  obtain ⟨handles, -, hi⟩ := Option.bind_eq_some_iff.mp hl
  split_ifs at hi
  cases hi
  exact ⟨edge, he, rfl⟩

lemma newNodeUiId_ne (h : id.toList.head? ≠ some 'n') (i : ℕ) : id ≠ c.newNodeUiId i := by
  rintro rfl
  simp [newNodeUiId] at h

lemma newUiId_ne {text : String} (hid : id ∈ c.nodes.map uiId)
    (h : text.toList.head? ≠ some 'n') : c.newUiId id ≠ text := by
  obtain ⟨i, hnew⟩ := exists_newUiId hid
  exact hnew ▸ (newNodeUiId_ne h i).symm

variable (hfresh : Fresh c) (hso : ∀ row ∈ c.edges, row.source ∈ c.nodes.map NodeRow.uiId)

omit hfresh in
lemma newUiId_eq_iff (hrow : row ∈ c.nodes) (hid : ∀ i, id ≠ c.newNodeUiId i) :
    c.newUiId id = c.newUiId row.uiId ↔ id = row.uiId :=
  ⟨newUiId_inj (.inr hid) (.inl (mem_map_of_mem hrow)), fun h => h ▸ rfl⟩

include hfresh hso

lemma linksInto_copied (hrow : row ∈ c.nodes) : linksInto handle
      (c.copiedEdges.filter fun e => e.target = c.newUiId row.uiId) =
    (c.incomingLinks row handle).map (renameLink c.renameKey) := by
  rw [incomingLinks, linksInto, linksInto, copiedEdges, edgeRecords, edgeRecords, map_map, filter_map,
    filter_map, filterMap_map, filterMap_map, map_filterMap]
  have hf : (c.edges.filter ((fun e => decide (e.target = c.newUiId row.uiId)) ∘
        EdgeRow.toGraphEdgeRecord ∘ c.copyEdge)) =
      c.edges.filter ((fun e => decide (e.target = row.uiId)) ∘ EdgeRow.toGraphEdgeRecord) :=
    filter_congr fun edge he =>
      decide_eq_decide.mpr (newUiId_eq_iff hrow (hfresh.targets edge he))
  rw [hf]
  refine filterMap_congr fun edge he => ?_
  have hs := hso edge (mem_filter.mp he).1
  have hh : linkHandles (c.copyEdge edge).toGraphEdgeRecord =
      linkHandles edge.toGraphEdgeRecord := rfl
  simp only [Function.comp_apply, linkInto, hh]
  cases linkHandles edge.toGraphEdgeRecord with
  | none => rfl
  | some handles =>
    rw [Option.bind_some, Option.bind_some]
    split_ifs
    · rw [Option.map_some, renameLink, renameKey_uiId hs]
      rfl
    · rfl

variable (h : CopiedRow c row row')

include h

lemma CopiedRow.sameInput_iff (hrow : row ∈ c.nodes) (handle : String) :
    SameInput c.renameKey (ServiceFilesInput c row.uiId handle)
      ((c.nodeData row).inputs.get? handle)
      ((c.copiedData row').inputs.get? handle) ↔ SourcesNamed c row handle := by
  have hbase := h.sameInput hrow c.renameKey handle
  have hv := (storedInput_plain c.dumps c.renameKey row handle).1
  have hids : ∀ link ∈ c.incomingLinks row handle,
      link.nodeId ∈ c.nodes.map NodeRow.uiId := by
    intro link hl
    obtain ⟨edge, he, hs⟩ := source_of_mem_incomingLinks hl
    exact hs ▸ hso edge he
  have hinj : ∀ a ∈ c.incomingLinks row handle, ∀ b ∈ c.incomingLinks row handle,
      c.renameKey a.nodeId = c.renameKey b.nodeId → a.nodeId = b.nodeId := by
    intro a ha b hb heq
    rw [renameKey_uiId (hids a ha), renameKey_uiId (hids b hb)] at heq
    exact newUiId_inj (.inl (hids a ha)) (.inl (hids b hb)) heq
  have hkept : ((linksInto handle (c.copiedEdges.filter
      fun e => e.target = row'.uiId)).filter (·.nodeId ≠ "")) =
        (c.incomingLinks row handle).map (renameLink c.renameKey) := by
    rw [h.uiId, linksInto_copied hfresh hso hrow]
    refine filter_eq_self.mpr fun link hl => ?_
    obtain ⟨old, hold, rfl⟩ := mem_map.mp hl
    rw [renameLink, renameKey_uiId (hids old hold)]
    exact decide_eq_true (newUiId_ne (hids old hold) (by decide))
  rw [nodeData, copiedData, toNodeData_get?, toNodeData_get?, hkept, h.name, SourcesNamed]
  cases allowsMultipleConnections c.reg row.name handle with
  | false => exact sameInput_single_iff hbase hv hinj
  | true => exact sameInput_multiple_iff hbase hv

lemma CopiedRow.sameData_iff (hrow : row ∈ c.nodes) :
    SameData c.renameKey (ServiceFilesInput c row.uiId)
      (c.nodeData row)
      (c.copiedData row') ↔
    row.storeEnabled ≠ some true ∧ ∀ handle, SourcesNamed c row handle := by
  have hflag : (row'.toRecord c.dumps).storeEnabled = (row.toRecord c.dumps).storeEnabled ↔
      row.storeEnabled ≠ some true := by
    rw [toRecord, toRecord, h.storeEnabled]
    rcases row.storeEnabled with - | - | - <;> simp
  constructor
  · intro hs
    refine ⟨hflag.mp hs.storeEnabled, fun handle => ?_⟩
    exact (h.sameInput_iff hfresh hso hrow handle).mp (hs.inputs handle)
  · rintro ⟨hstore, hn⟩
    refine ⟨h.name, hflag.mpr hstore, fun handle => ?_⟩
    exact (h.sameInput_iff hfresh hso hrow handle).mpr (hn handle)

end

section

variable {id' : String}

lemma copiedTargets_eq_nil : c.copiedTargets = [] ↔ normalizeTargetNodes c.targetNodes = [] := by
  simp [copiedTargets]

lemma serviceOutputId_inj (h : serviceOutputId id = serviceOutputId id') : id = id' :=
  (String.append_right_inj _).mp ((String.append_left_inj _).mp h)

lemma serviceOutputId_ne (id : String) : serviceOutputId id ≠ "__service_output__" := by
  intro h
  have hs : "__service_output__" = "__service_output_" ++ "_" := by decide
  have ha : id ++ "__" = "_" :=
    (String.append_right_inj _).mp ((String.append_assoc ..).symm.trans (h.trans hs))
  have hl := congrArg (fun text => text.toList.length) ha
  have htwo : "__".toList = ['_', '_'] := rfl
  have hone : "_".toList = ['_'] := rfl
  simp at hl

lemma newUiId_ne_serviceOutputId (hid : id ∈ c.nodes.map uiId) (targets : List String) :
    c.newUiId id ≠ resolveServiceOutputNodeId id' targets := by
  refine newUiId_ne hid ?_
  rw [resolveServiceOutputNodeId]
  split_ifs <;> simp

variable (hfresh : Fresh c)

include hfresh

lemma normalize_copiedTargets : normalizeTargetNodes c.copiedTargets = c.copiedTargets := by
  obtain ⟨hn, hids⟩ := normalizeTargetNodes_spec c.targetNodes
  refine normalizeTargetNodes_of_nodup ?_ ?_
  · refine hn.map_on fun id hid id' hid' h => ?_
    exact newUiId_inj (.inr (hfresh.targetNodes id (hids id hid).1))
      (.inr (hfresh.targetNodes id' (hids id' hid').1)) h
  · intro hmem
    obtain ⟨id, hid, he⟩ := mem_map.mp hmem
    rcases relink_cases c.nodup_nodes c.newNodeUiId id with ⟨i, hi, -⟩ | ⟨-, hs⟩
    · exact newUiId_ne (mem_of_getElem? hi) (by decide) he
    · exact (hids id hid).2 (hs.symm.trans he)

lemma resolve_copiedTargets (id : String) : resolveServiceOutputNodeId id c.copiedTargets =
      if (normalizeTargetNodes c.targetNodes).length = 1 then "__service_output__"
      else serviceOutputId id := by
  rw [resolveServiceOutputNodeId, normalize_copiedTargets hfresh, copiedTargets, length_map]
  rfl

lemma resolve_copied_inj (hid : id ∈ c.nodes.map uiId) (hid' : id' ∈ c.nodes.map uiId)
    (h : c.copiedServiceId id = c.copiedServiceId id') :
    c.serviceId id = c.serviceId id' := by
  rw [copiedServiceId, copiedServiceId, resolve_copiedTargets hfresh, resolve_copiedTargets hfresh] at h
  rw [serviceId, serviceId, resolveServiceOutputNodeId, resolveServiceOutputNodeId]
  split_ifs at h ⊢
  · rfl
  · rw [newUiId_inj (.inl hid) (.inl hid') (serviceOutputId_inj h)]

lemma renameKey_service (hrow : row ∈ c.nodes) (hkey : c.serviceId row.uiId ∉ c.nodes.map uiId) :
    c.renameKey (c.serviceId row.uiId) = c.copiedServiceId row.uiId := by
  rw [renameKey, nodeUiIdMap, uiIdMap_eq_none c.nodup_nodes hkey, copiedServiceId,
    resolve_copiedTargets hfresh, serviceId, resolveServiceOutputNodeId]
  split_ifs with hone
  · have hf : (c.nodes.find? fun row => serviceOutputId row.uiId = "__service_output__") =
        none := by
      rw [find?_eq_none]
      intro other _ heq
      exact serviceOutputId_ne other.uiId (of_decide_eq_true heq)
    rw [hf]
  · change (match c.nodes.find? fun other =>
      serviceOutputId other.uiId = serviceOutputId row.uiId with
      | some row => serviceOutputId (c.newUiId row.uiId)
      | none => serviceOutputId row.uiId) = _
    cases hf : c.nodes.find? fun other =>
      serviceOutputId other.uiId = serviceOutputId row.uiId with
    | none =>
      have hno := find?_eq_none.mp hf row hrow
      exact absurd (decide_eq_true rfl) hno
    | some other =>
      have hid := find?_some hf
      dsimp only
      rw [serviceOutputId_inj (of_decide_eq_true hid)]

lemma CopiedRow.hasOutput_iff (h : CopiedRow c row row') (hrow : row ∈ c.nodes) :
    HasOutput c.reg c.copiedEdges
        c.copiedTargets (row'.toRecord c.dumps) ↔
      HasServiceOutput c row := by
  have hs : row'.uiId ∈ c.copiedEdges.map
      GraphEdgeRecord.source ↔ row.uiId ∈ (edgeRecords c.edges).map GraphEdgeRecord.source := by
    simp only [copiedEdges, edgeRecords, map_map, mem_map, h.uiId]
    refine exists_congr fun edge => and_congr_right fun hedge => ?_
    exact newUiId_eq_iff hrow (hfresh.sources edge hedge)
  have ht : row'.uiId ∈ c.copiedTargets ↔ row.uiId ∈ normalizeTargetNodes c.targetNodes := by
    simp only [copiedTargets, mem_map, h.uiId]
    constructor
    · rintro ⟨id, hid, heq⟩
      have hfresh' := hfresh.targetNodes id ((normalizeTargetNodes_spec c.targetNodes).2 id hid).1
      rwa [← (newUiId_eq_iff hrow hfresh').mp heq]
    · exact fun hmem => ⟨row.uiId, hmem, rfl⟩
  rw [HasServiceOutput, HasOutput, normalize_copiedTargets hfresh]
  refine and_congr (by rw [toRecord, toRecord, h.type]) (and_congr ?_ ?_)
  · rw [isOutput, isOutput]
    by_cases he : normalizeTargetNodes c.targetNodes = []
    · rw [if_pos he, if_pos (copiedTargets_eq_nil.mpr he), decide_eq_true_iff, decide_eq_true_iff]
      exact not_congr hs
    · rw [if_neg he, if_neg (copiedTargets_eq_nil.not.mpr he), decide_eq_true_iff, decide_eq_true_iff]
      exact ht
  · rw [toRecord, toRecord, h.name]

end

section

variable {pipeline pipeline' : Pipeline} {k : String} {data : NodeData}

lemma project_get?_iff (hb : c.buildPipeline c.nodes c.edges c.targetNodes = some pipeline) :
    pipeline.get? k = some data ↔
      (∃ row ∈ c.nodes, HasServiceOutput c row ∧ c.serviceId row.uiId = k ∧ c.serviceData row = data) ∨
      (∀ row ∈ c.nodes, HasServiceOutput c row → c.serviceId row.uiId ≠ k) ∧
        ∃ row ∈ c.nodes, row.uiId = k ∧ c.nodeData row = data := by
  have hn : ((c.nodes.map (toRecord c.dumps)).map GraphNodeRecord.uiId).Nodup := by
    rw [map_map]
    exact c.nodup_nodes
  rw [build_get?_iff hn hb]
  simp only [mem_map, exists_exists_and_eq_and, forall_exists_index, and_imp,
    forall_apply_eq_imp_iff₂]
  rfl

variable (hcopies : Copies c.toCopying copied) (hfresh : Fresh c)

include hcopies hfresh

lemma Copies.get?_iff (hb : c.buildPipeline copied.nodes copied.edges c.copiedTargets = some pipeline') :
    pipeline'.get? k = some data ↔ ∃ row ∈ c.nodes, ∃ row' ∈ copied.nodes, CopiedRow c row row' ∧
      (HasServiceOutput c row ∧ c.copiedServiceId row.uiId = k ∧ c.serviceData row' = data ∨
      c.newUiId row.uiId = k ∧ c.copiedData row' = data) := by
  have hn : ((copied.nodes.map (toRecord c.dumps)).map GraphNodeRecord.uiId).Nodup := by
    rw [map_map]
    change (copied.nodes.map uiId).Nodup
    rw [hcopies.uiIds]
    exact c.nodup_nodes.map_on fun id hid id' hid' h => newUiId_inj (.inl hid) (.inl hid') h
  rw [build_get?_iff hn hb]
  simp only [mem_map, exists_exists_and_eq_and, hcopies.edges]
  constructor
  · rintro (⟨row', hrow', ho, hkey, hdata⟩ | ⟨-, row', hrow', hkey, hdata⟩)
    · obtain ⟨row, hrow, hc⟩ := hcopies.original hrow'
      refine ⟨row, hrow, row', hrow', hc, .inl ⟨(hc.hasOutput_iff hfresh hrow).mp ho, ?_, hdata⟩⟩
      rwa [copiedServiceId, ← hc.uiId]
    · obtain ⟨row, hrow, hc⟩ := hcopies.original hrow'
      exact ⟨row, hrow, row', hrow', hc, .inr ⟨hc.uiId ▸ hkey, hdata⟩⟩
  · rintro ⟨row, hrow, row', hrow', hc, ⟨ho, hkey, hdata⟩ | ⟨hkey, hdata⟩⟩
    · refine .inl ⟨row', hrow', (hc.hasOutput_iff hfresh hrow).mpr ho, ?_, hdata⟩
      exact (congrArg (resolveServiceOutputNodeId · _) hc.uiId).trans hkey
    · -- no service output has the id of a copied node
      refine .inr ⟨fun other _ _ hoth => ?_, row', hrow', hc.uiId.trans hkey, hdata⟩
      exact newUiId_ne_serviceOutputId (mem_map_of_mem hrow) _ (hkey.trans hoth.symm)

omit hcopies hfresh in
lemma refusedTarget_iff : RefusedTarget c ↔
    normalizeTargetNodes c.targetNodes ≠ [] ∧ ∃ row ∈ c.nodes, HasServiceOutput c row ∧
        (c.reg.get row.name).any fun nodeClass => !nodeClass.canBeOutputNode := by
  constructor
  · rintro ⟨row, hrow, htype, hmem, hclass⟩
    have ht := ne_nil_of_mem hmem
    refine ⟨ht, row, hrow, ⟨htype, ?_, fun hn => ?_⟩, hclass⟩
    · rw [isOutput, if_neg ht]
      exact decide_eq_true hmem
    · have hname : c.reg.get row.name = none := hn
      rw [hname] at hclass
      cases hclass
  · rintro ⟨ht, row, hrow, ⟨htype, hmem, -⟩, hclass⟩
    rw [isOutput, if_neg ht] at hmem
    exact ⟨row, hrow, htype, of_decide_eq_true hmem, hclass⟩

lemma Copies.build_none_iff :
    c.buildPipeline copied.nodes copied.edges c.copiedTargets = none ↔ RefusedTarget c := by
  rw [buildPipeline, build_eq_none_iff, normalize_copiedTargets hfresh, hcopies.edges,
    refusedTarget_iff, ne_eq, copiedTargets_eq_nil]
  simp only [mem_map, exists_exists_and_eq_and]
  refine and_congr_right fun _ => ⟨?_, ?_⟩
  · rintro ⟨row', hrow', ho, hclass⟩
    obtain ⟨row, hrow, hc⟩ := hcopies.original hrow'
    refine ⟨row, hrow, (hc.hasOutput_iff hfresh hrow).mp ho, ?_⟩
    rw [← hc.name]
    exact hclass
  · rintro ⟨row, hrow, ho, hclass⟩
    obtain ⟨row', hrow', hc⟩ := hcopies.copy hrow
    refine ⟨row', hrow', (hc.hasOutput_iff hfresh hrow).mpr ho, ?_⟩
    rw [← hc.name] at hclass
    exact hclass

omit hcopies hfresh in
lemma project_build_none_iff :
    c.buildPipeline c.nodes c.edges c.targetNodes = none ↔ RefusedTarget c := by
  rw [buildPipeline, build_eq_none_iff, refusedTarget_iff]
  simp only [mem_map, exists_exists_and_eq_and]
  rfl

variable (hso : ∀ row ∈ c.edges, row.source ∈ c.nodes.map uiId)
  (hb : c.buildPipeline c.nodes c.edges c.targetNodes = some pipeline)
  (hb' : c.buildPipeline copied.nodes copied.edges c.copiedTargets = some pipeline')

include hb

omit hcopies in
lemma renameKey_cases (hk : k ∈ pipeline.keys) :
    k ∈ c.nodes.map uiId ∧ c.renameKey k = c.newUiId k ∨
    k ∉ c.nodes.map uiId ∧ ∃ row ∈ c.nodes,
      HasServiceOutput c row ∧
      c.serviceId row.uiId = k ∧
      c.renameKey k = c.copiedServiceId row.uiId := by
  by_cases hn : k ∈ c.nodes.map uiId
  · exact .inl ⟨hn, renameKey_uiId hn⟩
  · obtain ⟨data, hget⟩ := mem_keys.mp hk
    rcases (project_get?_iff hb).mp hget with ⟨row, hrow, hout, rfl, -⟩ | ⟨-, row, hrow, rfl, -⟩
    · exact .inr ⟨hn, row, hrow, hout, rfl, renameKey_service hfresh hrow hn⟩
    · exact absurd (mem_map_of_mem hrow) hn

include hb'

omit hb in
lemma Copies.get?_node (hrow : row ∈ c.nodes) : ∃ row', CopiedRow c row row' ∧
    pipeline'.get? (c.newUiId row.uiId) = some (c.copiedData row') := by
  obtain ⟨row', hrow', hc⟩ := hcopies.copy hrow
  exact ⟨row', hc, (hcopies.get?_iff hfresh hb').mpr
    ⟨row, hrow, row', hrow', hc, .inr ⟨rfl, rfl⟩⟩⟩

omit hb in
lemma Copies.get?_service (hrow : row ∈ c.nodes) (hout : HasServiceOutput c row) :
    ∃ row', CopiedRow c row row' ∧ pipeline'.get? (c.copiedServiceId row.uiId) =
        some (c.serviceData row') := by
  obtain ⟨row', hrow', hc⟩ := hcopies.copy hrow
  exact ⟨row', hc, (hcopies.get?_iff hfresh hb').mpr
    ⟨row, hrow, row', hrow', hc, .inl ⟨hout, rfl, rfl⟩⟩⟩

omit hcopies hfresh hb' in
lemma project_get?_node (hc : ServiceKeysApart c) (hrow : row ∈ c.nodes) : pipeline.get? row.uiId =
      some (c.nodeData row) := by
  refine (project_get?_iff hb).mpr (.inr ⟨fun other ho hout hkey => ?_, row, hrow, rfl, rfl⟩)
  exact hc other ho hout (hkey ▸ mem_map_of_mem hrow)

lemma Copies.serviceKeysApart (hiso : ∀ k', k' ∈ pipeline'.keys → ∃ k ∈ pipeline.keys,
    c.renameKey k = k') : ServiceKeysApart c := by
  intro row hrow hout hc
  obtain ⟨row', -, hget⟩ := hcopies.get?_service hfresh hb' hrow hout
  obtain ⟨k, hk, hr⟩ := hiso _ (mem_keys.mpr ⟨_, hget⟩)
  rcases renameKey_cases hfresh hb hk with ⟨hid, hnew⟩ | ⟨hn, other, ho, -, rfl, hnew⟩
  · exact newUiId_ne_serviceOutputId hid _ (hnew.symm.trans hr)
  · have hs := resolve_copied_inj hfresh (mem_map_of_mem ho) (mem_map_of_mem hrow)
      (hnew.symm.trans hr)
    exact hn (hs ▸ hc)

omit hcopies hfresh hb hb' in
lemma sameData_serviceNode (hrow : row ∈ c.nodes) (hc : CopiedRow c row row')
    (excepted : String → Prop) :
    SameData c.renameKey excepted (c.serviceData row)
      (c.serviceData row') := by
  refine ⟨rfl, rfl, fun input => .inl ?_⟩
  rw [serviceData, serviceData, serviceNode, serviceNode]
  dsimp only
  rw [get?_set, get?_set]
  split_ifs
  · rw [Option.map_some, renameValue, renameLink]
    dsimp only [toRecord]
    rw [renameKey_uiId (mem_map_of_mem hrow), hc.uiId, hc.name]
  · rfl

omit hcopies hb' in
lemma renameKey_inj {l : String} (hk : k ∈ pipeline.keys) (hl : l ∈ pipeline.keys)
    (heq : c.renameKey k = c.renameKey l) : k = l := by
  rcases renameKey_cases hfresh hb hk with ⟨hid, hnew⟩ | ⟨-, row, hrow, -, rfl, hnew⟩
  · rcases renameKey_cases hfresh hb hl with ⟨hid', hnew'⟩ | ⟨-, _, -, -, -, hnew'⟩
    · exact newUiId_inj (.inl hid) (.inl hid') (hnew.symm.trans (heq.trans hnew'))
    · exact absurd (hnew.symm.trans (heq.trans hnew')) (newUiId_ne_serviceOutputId hid _)
  · rcases renameKey_cases hfresh hb hl with ⟨hid, hnew'⟩ | ⟨-, other, ho, -, rfl, hnew'⟩
    · exact absurd (hnew'.symm.trans (heq.symm.trans hnew)) (newUiId_ne_serviceOutputId hid _)
    · exact resolve_copied_inj hfresh (mem_map_of_mem hrow) (mem_map_of_mem ho)
        (hnew.symm.trans (heq.trans hnew'))

lemma Copies.mem_keys_iff (hc : ServiceKeysApart c) (k' : String) :
    k' ∈ pipeline'.keys ↔ ∃ k ∈ pipeline.keys, c.renameKey k = k' := by
  constructor
  · intro hk'
    obtain ⟨data, hget⟩ := mem_keys.mp hk'
    obtain ⟨row, hrow, row', -, -, ⟨hout, rfl, -⟩ | ⟨rfl, -⟩⟩ :=
      (hcopies.get?_iff hfresh hb').mp hget
    · exact ⟨c.serviceId row.uiId, mem_keys.mpr
        ⟨_, (project_get?_iff hb).mpr (.inl ⟨row, hrow, hout, rfl, rfl⟩)⟩,
        renameKey_service hfresh hrow (hc row hrow hout)⟩
    · exact ⟨row.uiId, mem_keys.mpr ⟨_, project_get?_node hb hc hrow⟩,
        renameKey_uiId (mem_map_of_mem hrow)⟩
  · rintro ⟨k, hk, rfl⟩
    rcases renameKey_cases hfresh hb hk with ⟨hid, hnew⟩ | ⟨-, row, hrow, hout, rfl, hnew⟩
    · obtain ⟨row, hrow, rfl⟩ := mem_map.mp hid
      obtain ⟨row', -, hget⟩ := hcopies.get?_node hfresh hb' hrow
      exact mem_keys.mpr ⟨_, hnew ▸ hget⟩
    · obtain ⟨row', -, hget⟩ := hcopies.get?_service hfresh hb' hrow hout
      exact mem_keys.mpr ⟨_, hnew ▸ hget⟩

include hso

lemma Copies.isomorphic_iff : Isomorphic c pipeline pipeline' ↔
      (∀ row ∈ c.nodes, row.storeEnabled ≠ some true) ∧
      ServiceKeysApart c ∧
      ∀ row ∈ c.nodes, ∀ handle, SourcesNamed c row handle := by
  constructor
  · intro hiso
    have hcla := hcopies.serviceKeysApart hfresh hb hb' fun k' => (hiso.keys k').mp
    have hdata : ∀ row ∈ c.nodes,
        row.storeEnabled ≠ some true ∧ ∀ handle, SourcesNamed c row handle := by
      intro row hrow
      obtain ⟨row', hc, hget'⟩ := hcopies.get?_node hfresh hb' hrow
      rw [← renameKey_uiId (mem_map_of_mem hrow)] at hget'
      exact (hc.sameData_iff hfresh hso hrow).mp
        (hiso.data row.uiId _ _ (project_get?_node hb hcla hrow) hget')
    exact ⟨fun row hrow => (hdata row hrow).1, hcla, fun row hrow => (hdata row hrow).2⟩
  · rintro ⟨hstore, hcla, hn⟩
    refine ⟨fun k hk l hl => renameKey_inj hfresh hb hk hl,
      hcopies.mem_keys_iff hfresh hb hb' hcla, fun k data data' hget hget' => ?_⟩
    rcases (project_get?_iff hb).mp hget with
      ⟨row, hrow, hout, rfl, rfl⟩ | ⟨-, row, hrow, rfl, rfl⟩
    · obtain ⟨row', hc, hcopy⟩ := hcopies.get?_service hfresh hb' hrow hout
      rw [renameKey_service hfresh hrow (hcla row hrow hout), hcopy] at hget'
      obtain rfl := Option.some.inj hget'
      exact sameData_serviceNode hrow hc _
    · obtain ⟨row', hc, hcopy⟩ := hcopies.get?_node hfresh hb' hrow
      rw [renameKey_uiId (mem_map_of_mem hrow), hcopy] at hget'
      obtain rfl := Option.some.inj hget'
      exact (hc.sameData_iff hfresh hso hrow).mpr ⟨hstore row hrow, hn row hrow⟩

omit hb hb' in
lemma Copies.pipelines_iff : (match c.buildPipeline c.nodes c.edges c.targetNodes,
      c.buildPipeline copied.nodes copied.edges c.copiedTargets with
    | some pipeline, some pipeline' => Isomorphic c pipeline pipeline'
    | none, none => True
    | _, _ => False) ↔
    RefusedTarget c ∨ (∀ row ∈ c.nodes, row.storeEnabled ≠ some true) ∧
      ServiceKeysApart c ∧ ∀ row ∈ c.nodes, ∀ handle, SourcesNamed c row handle := by
  by_cases hr : RefusedTarget c
  · rw [project_build_none_iff.mpr hr, (hcopies.build_none_iff hfresh).mpr hr]
    exact iff_of_true trivial (.inl hr)
  · have hs := project_build_none_iff.not.mpr hr
    have hs' := (hcopies.build_none_iff hfresh).not.mpr hr
    obtain ⟨pipeline, hb⟩ := Option.ne_none_iff_exists'.mp hs
    obtain ⟨pipeline', hb'⟩ := Option.ne_none_iff_exists'.mp hs'
    rw [hb, hb', or_iff_right hr]
    exact hcopies.isomorphic_iff hfresh hso hb hb'

end

theorem executionEquivalent_iff (hfresh : Fresh c) (h : c.copyProject = some copied) :
    ExecutionEquivalent c copied ↔ CopiesFaithfully c := by
  have hcopies := copies_of_copyProject h
  constructor
  · rintro ⟨hreferences, hpipelines⟩
    have hr := (hcopies.referenced_iff hfresh).mp hreferences
    exact ⟨hr, (hcopies.pipelines_iff hfresh fun row hrow => (hr.1 row hrow).1).mp hpipelines⟩
  · rintro ⟨hr, hpipeline⟩
    exact ⟨(hcopies.referenced_iff hfresh).mpr hr,
      (hcopies.pipelines_iff hfresh fun row hrow => (hr.1 row hrow).1).mpr hpipeline⟩

def copyRegistry : Registry where
  get name := some { className := name, outputNames := ["output"], outputNode := true,
                     runtimeFingerprint := "" }
  serviceOutput := rfl

def loadRow (storeEnabled : Bool) : NodeRow where
  uiId := "load"
  type := "simpleinputnode"
  name := "LoadCSV"
  inputValues := .empty
  storeEnabled := some storeEnabled

def sortRow : NodeRow :=
  { uiId := "sort", type := "simplenode", name := "Sort", inputValues := .empty }

def sortComparison (storeEnabled : Bool) : Comparison where
  nodes := [loadRow storeEnabled, sortRow]
  edges := [{ source := "load", sourceHandle := some "output-output",
              target := "sort", targetHandle := some "input-df" }]
  subgraphs := []
  files := .empty
  nodup_nodes := by
    change ["load", "sort"].Nodup
    decide
  nodup_subgraphs := nodup_nil
  builtins := sampleBuiltins
  organizationId := "org"
  uuids := sampleUuids
  reg := copyRegistry
  dumps _ := ""
  targetNodes := []

lemma fresh_sortComparison (storeEnabled : Bool) : Fresh (sortComparison storeEnabled) := by
  have hl : ∀ i, "load" ≠ (sortComparison storeEnabled).newNodeUiId i := newNodeUiId_ne (by decide)
  have hs : ∀ i, "sort" ≠ (sortComparison storeEnabled).newNodeUiId i := newNodeUiId_ne (by decide)
  refine ⟨?_, forall_mem_singleton.mpr hl, forall_mem_singleton.mpr hs, nofun, ?_, ?_⟩
  · exact forall_mem_cons.mpr ⟨hl, forall_mem_singleton.mpr hs⟩
  · exact forall_mem_cons.mpr ⟨nofun, forall_mem_singleton.mpr nofun⟩
  · exact forall_mem_singleton.mpr nofun

theorem executionEquivalent_sortProject : ∃ copied,
    (sortComparison false).copyProject = some copied ∧
      ExecutionEquivalent (sortComparison false) copied := by
  obtain ⟨copied, hcopy⟩ := Option.isSome_iff_exists.mp (by decide +kernel :
    (sortComparison false).copyProject.isSome)
  refine ⟨copied, hcopy, (executionEquivalent_iff (fresh_sortComparison false) hcopy).mpr
    ⟨⟨by decide, by decide⟩, .inr ⟨by decide, ?_, ?_⟩⟩⟩
  · have hids : ∀ row ∈ (sortComparison false).nodes, (sortComparison false).serviceId row.uiId ∉
        (sortComparison false).nodes.map uiId := by decide +kernel
    exact fun row hrow _ => hids row hrow
  · intro row _ handle
    have hnamed : ∀ link ∈ (sortComparison false).incomingLinks row handle, link.nodeId ≠ "" := by
      intro link hlink
      obtain ⟨edge, hedge, hsource⟩ := source_of_mem_incomingLinks hlink
      rw [mem_singleton.mp hedge] at hsource
      rw [← hsource]
      decide
    rw [SourcesNamed]
    split_ifs
    · exact hnamed
    · exact fun link hlink => hnamed link (mem_of_getLast? hlink)

theorem not_executionEquivalent_sortProject : ∃ copied,
    (sortComparison true).copyProject = some copied ∧
      ¬ ExecutionEquivalent (sortComparison true) copied := by
  obtain ⟨copied, hcopy⟩ := Option.isSome_iff_exists.mp (by decide +kernel :
    (sortComparison true).copyProject.isSome)
  refine ⟨copied, hcopy, fun hequivalent => ?_⟩
  rcases ((copies_of_copyProject hcopy).pipelines_iff (fresh_sortComparison true) (by decide)).mp
    hequivalent.pipelines with ⟨row, -, -, hmem, -⟩ | ⟨hstore, -⟩
  · cases hmem
  · exact hstore (loadRow true) mem_cons_self rfl

end Dvt.Projects
