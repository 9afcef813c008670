import Dvt.Mcp.Persistence

/-! An applied patch, from its preparation to the inserts. -/

namespace Dvt.Mcp

open Library List Dict
open Pipelines (coalesce chosen sortedSet mem_sortedSet)

variable {service : Service} {uuids : Uuids} {db : Database}
variable {patch : GraphPatchSchema} {graph : GraphState}

structure SameNode (stored validated : NodeState) : Prop where
  nodeType : stored.nodeType = validated.nodeType
  displayName : stored.displayName = validated.displayName
  comment : stored.comment = validated.comment
  subgraphId : stored.subgraphId = validated.subgraphId
  storeEnabled : stored.storeEnabled = validated.storeEnabled
  position : stored.position = validated.position
  inputs : ∀ name, stored.inputs.get? name = validated.inputs.get? name

def InjectiveOn (rename : String → String) (ids : List String) : Prop :=
  ∀ a ∈ ids, ∀ b ∈ ids, rename a = rename b → a = b

structure SameGraph (node edge : String → String) (validated saved : GraphState) : Prop where
  injectiveNodes : InjectiveOn node validated.nodes.keys
  injectiveEdges : InjectiveOn edge validated.edges.keys
  nodeIds : ∀ k, k ∈ saved.nodes.keys ↔ k ∈ validated.nodes.keys.map node
  edgeIds : ∀ k, k ∈ saved.edges.keys ↔ k ∈ validated.edges.keys.map edge
  nodes : ∀ id state, validated.nodes.get? id = some state →
    ∃ stored, saved.nodes.get? (node id) = some stored ∧ SameNode stored state
  edges : ∀ id state, validated.edges.get? id = some state → saved.edges.get? (edge id) =
      some { state with source := node state.source, target := node state.target }

section

lemma chosen_eq_some {α : Type} {n : ℕ} {items : List α} {a : α} (ha : a ∈ items)
    (hall : ∀ b ∈ items, b = a) : chosen n items = some a := by
  have hpos : 0 < items.length := length_pos_of_mem ha
  have hlt : n % items.length < items.length := Nat.mod_lt n hpos
  rw [chosen, List.getElem?_eq_getElem hlt, hall _ (getElem_mem hlt)]

lemma entries_eq_nil_iff {ν : Type} {d : Dict String ν} :
    d.entries = [] ↔ ∀ name, (d.get? name).isSome = false := by
  constructor
  · intro h name
    have hn : d.get? name = none := by rw [get?_eq_none, Dict.keys, h]; exact not_mem_nil
    rw [hn]
    rfl
  · intro h
    refine eq_nil_iff_forall_not_mem.mpr fun e he => ?_
    have hs := get?_eq_some.mpr he
    have hf := h e.1
    rw [hs] at hf
    cases hf

variable {id : String} {node : NodeState} {ui : GraphNodeUI}

lemma nodeFromRecord_columns
    (h : nodeToUi id node = some ui) : ui.id = id ∧ nodeFromRecord ui.columns = node := by
  obtain ⟨position, hposition, rfl⟩ := Option.map_eq_some_iff.mp h
  refine ⟨rfl, ?_⟩
  cases node
  cases hposition
  rfl

lemma inputs_patchColumns (ui : GraphNodeUI) (columns : NodeColumns) :
    (nodeFromRecord (patchColumns ui.modelDump columns)).inputs =
      if ui.inputValues.entries = [] then (nodeFromRecord columns).inputs else ui.inputValues := by
  simp only [nodeFromRecord, patchColumns, GraphNodeUI.modelDump, nullifEmpty]
  by_cases he : ui.inputValues.entries = [] <;> simp [Option.filter_some, he]

lemma sameNode_patchColumns_iff {columns : NodeColumns} (hui : nodeToUi id node = some ui)
    (hstore : node.storeEnabled = none → columns.storeEnabled = none) :
    SameNode (nodeFromRecord (patchColumns ui.modelDump columns)) node ↔
      (node.comment = some unset → columns.comment = some unset) ∧
      (node.subgraphId = some unset → columns.subgraphId = some unset) ∧
      (node.inputs.entries = [] → (nodeFromRecord columns).inputs.entries = []) := by
  obtain ⟨position, hposition, rfl⟩ := Option.map_eq_some_iff.mp hui
  have hn : ∀ value stored : Option String,
      nullableExpr (typedValueNullableAware (some value)) stored = value ↔
        (value = some unset → stored = some unset) := by
    intro value stored
    rw [typedValueNullableAware, nullableExpr]
    by_cases hvalue : value = some unset
    · simp [hvalue]
    · simp [hvalue]
  constructor
  · intro h
    refine ⟨(hn _ _).mp h.comment, (hn _ _).mp h.subgraphId, fun he => ?_⟩
    have hi := h.inputs
    rw [inputs_patchColumns, if_pos he] at hi
    rw [entries_eq_nil_iff]
    intro name
    rw [hi name]
    exact entries_eq_nil_iff.mp he name
  · rintro ⟨hc, hs, hi⟩
    constructor
    case nodeType => rfl
    case displayName => rfl
    case comment => exact (hn _ _).mpr hc
    case subgraphId => exact (hn _ _).mpr hs
    case storeEnabled =>
      cases hsto : node.storeEnabled with
      | none => exact hstore hsto
      | some value => rfl
    case position => exact hposition.symm
    case inputs =>
      intro name
      rw [inputs_patchColumns]
      split
      · next he =>
        have hold := entries_eq_nil_iff.mp (hi he) name
        have hnew := entries_eq_nil_iff.mp he name
        rw [Option.isSome_eq_false_iff, Option.isNone_iff_eq_none] at hold hnew
        rw [hold, hnew]
      · rfl

end

section

variable {nodes nodes' : Dict String NodeState}

lemma foldlM_setPosition {items : List (String × Position)}
    (hn : (items.map Prod.fst).Nodup) (h : items.foldlM setPosition nodes = some nodes') :
    (∀ item ∈ items, item.1 ∈ nodes.keys) ∧
      (∀ k, k ∉ items.map Prod.fst → nodes'.get? k = nodes.get? k) ∧
      ∀ item ∈ items, nodes'.get? item.1 =
        (nodes.get? item.1).map fun node => { node with position := some item.2 } := by
  induction items generalizing nodes with
  | nil =>
    cases h
    exact ⟨nofun, fun _ _ => rfl, nofun⟩
  | cons item items ih =>
    obtain ⟨hi, hn⟩ := nodup_cons.mp hn
    obtain ⟨moved, hmov, h⟩ := Option.bind_eq_some_iff.mp h
    obtain ⟨node, hnode, rfl⟩ := Option.map_eq_some_iff.mp hmov
    obtain ⟨hp, hkept, hset⟩ := ih hn h
    have hne : ∀ other ∈ items, other.1 ≠ item.1 :=
      fun other ho heq => hi (heq ▸ mem_map_of_mem ho)
    refine ⟨fun other ho => ?_, fun k hk => ?_, fun other ho => ?_⟩
    · obtain rfl | ho := mem_cons.mp ho
      · exact Dict.mem_keys.mpr ⟨node, hnode⟩
      · obtain ⟨m, hm⟩ := Dict.mem_keys.mp (hp other ho)
        rw [get?_set, if_neg (hne other ho)] at hm
        exact Dict.mem_keys.mpr ⟨m, hm⟩
    · rw [map_cons, mem_cons, not_or] at hk
      rw [hkept k hk.2, get?_set, if_neg hk.1]
    · obtain rfl | ho := mem_cons.mp ho
      · rw [hkept other.1 hi, get?_set, if_pos rfl, hnode]
        rfl
      · rw [hset other ho, get?_set, if_neg (hne other ho)]

structure Moved (before after : Dict String NodeState) (positions : Dict String Position) : Prop where
  present : ∀ k ∈ positions.keys, k ∈ before.keys
  node : ∀ k, after.get? k = (before.get? k).map fun node =>
    (positions.get? k).elim node fun position => { node with position := some position }

lemma moved_of_foldlM {positions : Dict String Position}
    (h : positions.entries.foldlM setPosition nodes = some nodes') :
    Moved nodes nodes' positions := by
  obtain ⟨hp, hkept, hset⟩ := foldlM_setPosition positions.nodup h
  constructor
  case present =>
    intro k hk
    obtain ⟨item, hi, rfl⟩ := mem_map.mp hk
    exact hp item hi
  case node =>
    intro k
    cases hposition : positions.get? k with
    | none =>
      rw [hkept k (get?_eq_none.mp hposition)]
      exact (Option.map_id' ..).symm
    | some position => exact hset (k, position) (get?_eq_some.mp hposition)

lemma preparePatch_ok {snapshot : GraphState} {prepared : Prepared}
    (h : preparePatch service snapshot patch = .ok prepared) :
    ∃ (drafted : GraphState) (positions : PositionChanges),
      prepared.references.nodeIdsByRef.values = temporaryNodeIds snapshot patch ∧
      prepared.changes.createdNodeIds = temporaryNodeIds snapshot patch ∧
      prepared.changes.deletedNodeIds = patch.deleteNodeIds ∧
      Patched snapshot drafted prepared.changes patch.updateNodes
        patch.deleteConnectionIds ∧
      prepared.graph.edges = drafted.edges ∧
      Moved drafted.nodes prepared.graph.nodes positions.nodes ∧
      buildOperations prepared.graph prepared.changes positions = some prepared.payload := by
  obtain ⟨references, hr, h⟩ := bind_eq_ok.mp h
  obtain ⟨_, he, h⟩ := bind_eq_ok.mp h
  obtain ⟨positions, -, h⟩ := bind_eq_ok.mp h
  obtain ⟨nodes, hn, h⟩ := bind_eq_ok.mp h
  obtain ⟨-, -, h⟩ := bind_eq_ok.mp h
  obtain ⟨payload, hpay, h⟩ := bind_eq_ok.mp h
  cases h
  have hreso : resolvePatch patch snapshot.nodes.keys snapshot.edges.keys = .ok references := by
    cases hres : resolvePatch patch snapshot.nodes.keys snapshot.edges.keys with
    | error errors => rw [hres] at hr; cases hr
    | ok resolved => rw [hres] at hr; cases hr; rfl
  obtain ⟨hv, hc, hu, hd, hdc⟩ := resolvePatch_ok hreso
  have hp := patched_of_applyPatchToState (isEmpty_iff.mp (require_eq_ok.mp he))
  rw [hu, hdc] at hp
  exact ⟨_, positions, hv, hc, hd, hp, rfl, moved_of_foldlM (orFail_eq_ok.mp hn),
    orFail_eq_ok.mp hpay⟩

end

section

lemma mem_presentNodes {ids : List String} {item : String × NodeState} :
    item ∈ presentNodes graph ids ↔ item.1 ∈ ids ∧ graph.nodes.get? item.1 = some item.2 := by
  simp only [presentNodes, mem_filterMap, Option.map_eq_some_iff, mem_sortedSet]
  constructor
  · rintro ⟨id, hid, node, hn, rfl⟩
    exact ⟨hid, hn⟩
  · rintro ⟨hid, hn⟩
    exact ⟨item.1, hid, item.2, hn, rfl⟩

variable {graph : GraphState} {ids : List String} {uis : List GraphNodeUI}

lemma mem_uiNodes (h : uiNodes graph ids = some uis) {ui : GraphNodeUI} :
    ui ∈ uis ↔ ui.id ∈ ids ∧ ∃ node, graph.nodes.get? ui.id = some node ∧
      nodeToUi ui.id node = some ui := by
  have hmem : ui ∈ uis ↔ ∃ item ∈ presentNodes graph ids, nodeToUi item.1 item.2 = some ui := by
    rw [← mem_map (f := fun item : String × NodeState => nodeToUi item.1 item.2), mapM_eq_some.mp h]
    simp
  rw [hmem]
  constructor
  · rintro ⟨item, hi, hui⟩
    obtain ⟨hid, hn⟩ := mem_presentNodes.mp hi
    obtain ⟨heq, -⟩ := nodeFromRecord_columns hui
    rw [heq]
    exact ⟨hid, item.2, hn, hui⟩
  · rintro ⟨hid, node, hn, hui⟩
    exact ⟨(ui.id, node), mem_presentNodes.mpr ⟨hid, hn⟩, hui⟩

lemma exists_mem_uiNodes (h : uiNodes graph ids = some uis) {id : String} {node : NodeState}
    (hid : id ∈ ids) (hn : graph.nodes.get? id = some node) :
    ∃ ui ∈ uis, nodeToUi id node = some ui := by
  have hui : nodeToUi id node ∈ uis.map some := by
    rw [← mapM_eq_some.mp h]
    exact mem_map_of_mem (f := fun item : String × NodeState => nodeToUi item.1 item.2)
      (mem_presentNodes.mpr ⟨hid, hn⟩ : (id, node) ∈ presentNodes graph ids)
  obtain ⟨ui, hmem, hui⟩ := mem_map.mp hui
  exact ⟨ui, hmem, hui.symm⟩

end

structure Application (service : Service) (uuids : Uuids) (db : Database)
    (patch : GraphPatchSchema) where
  project : ProjectRecord
  changes : GraphChanges
  drafted : GraphState
  validated : GraphState
  positions : PositionChanges
  permanent : Dict String String
  created : List GraphNodeUI
  updated : List GraphNodeUI
  renamedNodes : List GraphNodeUI
  nodes : Table (recordSchema NodeColumns)
  edges : Table (recordSchema EdgeState)
  created_ids : changes.createdNodeIds = temporaryNodeIds (loadSnapshot db project) patch
  deleted_ids : changes.deletedNodeIds = patch.deleteNodeIds
  permanent_eq : ∀ id, renamed permanent id = id ↔ id ∉ changes.createdNodeIds
  patched : Patched (loadSnapshot db project) drafted changes patch.updateNodes
    patch.deleteConnectionIds
  edges_validated : validated.edges = drafted.edges
  moved : Moved drafted.nodes validated.nodes positions.nodes
  created_eq : uiNodes validated changes.createdNodeIds = some created
  updated_eq : uiNodes validated changes.updatedNodeIds = some updated
  renamed_eq : created.mapM (fun node => (permanent.get? node.id).map fun id => { node with id }) =
    some renamedNodes
  nodes_eq : (deleteBy project (sortedSet changes.deletedNodeIds) db.nodes).insertAll
    (renamedNodes.map fun node => newRecord project project.userId node.id node.columns) = some nodes
  edges_eq : (deleteBy project (sortedSet changes.deletedEdgeIds) db.edges).insertAll
    ((materializeEdges uuids permanent (createdEdges validated changes)).map fun edge =>
      newRecord project project.userId edge.id edge.toEdgeState) = some edges

namespace Application

variable {patch : GraphPatchSchema} (app : Application service uuids db patch)

def savedNodes (choice : String → ℕ) : Dict String NodeState :=
  loadRows app.project nodeFromRecord (updateGraphNodes choice app.project.id app.project.userId
    (nodeUpdates app.changes app.positions app.updated) app.nodes)

def savedEdges : Dict String EdgeState := loadRows app.project id app.edges

abbrev newEdges := createdEdges app.validated app.changes

def permanentEdges : Dict String String := permanentEdgeIds uuids app.newEdges

end Application

variable {projectId : String} {project : ProjectRecord}

lemma userId_of_findProject {scope : AccessScope}
    (h : findProject db scope projectId = some project) :
    scope.ownerUserId.getD project.userId = project.userId := by
  have ha := List.find?_some h
  rw [Bool.and_eq_true, AccessScope.allows, Bool.and_eq_true] at ha
  cases hs : scope.ownerUserId with
  | none => rfl
  | some userId =>
    have ho := ha.2.2
    rw [hs] at ho
    exact (of_decide_eq_true ho).symm

variable {principal : Principal}

lemma getAccessibleProject_eq_some
    (h : getAccessibleProject db principal projectId = some project) :
    principal.projectIds.all (·.contains projectId) = true ∧
      findProject db principal.scope projectId = some project := by
  rw [getAccessibleProject] at h
  split at h
  · next ha => exact ⟨ha, h⟩
  · cases h

lemma renamed_permanentNodeIds {references : ResolvedPatch}
    (h : references.nodeIdsByRef.values = temporaryNodeIds graph patch) (id : String) :
    renamed (permanentNodeIds uuids references) id = id ↔ id ∉ temporaryNodeIds graph patch := by
  have hk : references.nodeIdsByRef.values.zipIdx.map Prod.fst = temporaryNodeIds graph patch := by
    rw [h, zipIdx_map_fst]
  constructor
  · intro hid hmem
    rw [← hk] at hmem
    obtain ⟨entry, -, -, hget⟩ := get?_foldl_set_of_mem
      (g := fun entry : String × ℕ => "node_" ++ uuids.node entry.2) .empty hmem
    rw [hk] at hmem
    have hh := (consistent_resolveNodes patch _).head? id hmem
    rw [renamed, permanentNodeIds, hget, Option.getD_some] at hid
    rw [← hid] at hh
    simp at hh
  · intro hid
    rw [← hk] at hid
    rw [renamed, permanentNodeIds, get?_foldl_set_of_notMem _ hid]
    rfl

theorem exists_application {choice : String → ℕ} {request : Request} {outcome : Outcome}
    (h : applyGraphChanges service choice uuids db principal request = .ok outcome) :
    ∃ app : Application service uuids db request.patch,
      getAccessibleProject db principal request.projectId = some app.project ∧
      outcome.validated = app.validated ∧ outcome.permanentNodes = app.permanent ∧
      outcome.permanentEdges = app.permanentEdges ∧
      outcome.saved.nodes = app.savedNodes choice ∧ outcome.saved.edges = app.savedEdges := by
  obtain ⟨project, hp, h⟩ := bind_eq_ok.mp h
  obtain ⟨_, -, h⟩ := bind_eq_ok.mp h
  obtain ⟨_, -, h⟩ := bind_eq_ok.mp h
  obtain ⟨prepared, hpre, h⟩ := bind_eq_ok.mp h
  obtain ⟨payload, hpay, h⟩ := bind_eq_ok.mp h
  obtain ⟨found, hf, h⟩ := bind_eq_ok.mp h
  obtain ⟨stored, hs, h⟩ := bind_eq_ok.mp h
  obtain ⟨refreshed, hr, h⟩ := bind_eq_ok.mp h
  cases h
  rw [orFail_eq_ok] at hp hpay hf hs hr
  -- the three lookups find one project, and its owner is the user that the rows are written for
  obtain ⟨ha, hsco⟩ := getAccessibleProject_eq_some hp
  obtain rfl : found = project := Option.some.inj (hf.symm.trans hsco)
  rw [userId_of_findProject hf] at hs
  obtain ⟨drafted, positions, hv, hci, hdi, hpat, he, hm, hb⟩ :=
    preparePatch_ok hpre
  obtain ⟨created, hc, hb⟩ := Option.bind_eq_some_iff.mp hb
  obtain ⟨updated, hu, hb⟩ := Option.bind_eq_some_iff.mp hb
  obtain ⟨renamedNodes, hren, hfin⟩ := Option.bind_eq_some_iff.mp hpay
  cases hfin
  obtain ⟨nodes, hn, hs⟩ := Option.bind_eq_some_iff.mp hs
  obtain ⟨edges, he', hs⟩ := Option.bind_eq_some_iff.mp hs
  cases hs
  obtain ⟨-, href⟩ := getAccessibleProject_eq_some hr
  obtain rfl : refreshed = found := Option.some.inj (href.symm.trans hf)
  have hpe := Option.some.inj hb
  rw [← hpe] at hren hn he'
  have hper : ∀ id, renamed (permanentNodeIds uuids prepared.references) id = id ↔
      id ∉ prepared.changes.createdNodeIds := by
    intro id
    rw [hci]
    exact renamed_permanentNodeIds hv id
  refine ⟨⟨refreshed, prepared.changes, drafted, prepared.graph, positions, _, created, updated,
    renamedNodes, nodes, edges, hci, hdi, hper, hpat, he, hm, hc, hu, hren,
    hn, he'⟩, hp, rfl, rfl, ?_, ?_, rfl⟩
  · rw [← hpe]
    rfl
  · rw [← hpe]
    rfl

end Dvt.Mcp
