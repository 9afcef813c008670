import Dvt.Mcp.State

/-! The edits of a patch on the working copy, and the errors they collect. -/

namespace Dvt.Mcp

open Library List Dict
open Pipelines (sortedSet mem_sortedSet)

variable {updates : List UpdateNodeSchema}

def genericCodeNodes : List String := ["ExecutePython", "DataFrameExecCode", "ExecuteSQL"]

structure Draft where
  graph : GraphState
  errors : List GraphError := []
  touchedCodeNodeIds : List String := []

def Draft.report (draft : Draft) (error : GraphError) : Draft :=
  { draft with errors := draft.errors ++ [error] }

def Draft.setNode (draft : Draft) (id : String) (node : NodeState) (errors : List GraphError) :
    Draft where
  graph := { draft.graph with nodes := draft.graph.nodes.set id node }
  errors := draft.errors ++ errors
  touchedCodeNodeIds :=
    if node.nodeType ∈ genericCodeNodes then draft.touchedCodeNodeIds ++ [id]
    else draft.touchedCodeNodeIds

def popAll {ν : Type} (ids : List String) (d : Dict String ν) : Dict String ν := ids.foldl Dict.erase d

def checkSubgraph (subgraphId : Option String) (draft : Draft) : Draft :=
  match subgraphId with
  | some id => if id ∈ draft.graph.subgraphs.keys then draft else draft.report (.unknownSubgraph id)
  | none => draft

def deleteNodes (deletedNodeIds : List String) (draft : Draft) : Draft :=
  let unknown := sortedSet (deletedNodeIds.filter (· ∉ draft.graph.nodes.keys))
  let draft := if unknown.isEmpty then draft else draft.report (.unknownNodes unknown)
  { draft with graph := { draft.graph with nodes := popAll deletedNodeIds draft.graph.nodes } }

def applyInput (nodeId : String) (state : NodeInputValues × List GraphError)
    (edit : String × Option InputValueSchema) : NodeInputValues × List GraphError :=
  match edit.2 with
  | none => (state.1.erase edit.1, state.2)
  | some value =>
    match canonicalInput value with
    | .ok input => (state.1.set edit.1 input, state.2)
    | .error message => (state.1, state.2 ++ [.invalidInput nodeId message])

def applyInputs (nodeId : String) (edits : InputEdits) (inputs : NodeInputValues) :
    NodeInputValues × List GraphError :=
  edits.entries.foldl (applyInput nodeId) (inputs, [])

def displayNameOr (name : Option String) (nodeType : String) : String :=
  (name.filter (· ≠ "")).getD nodeType

def editedInputs (update : UpdateNodeSchema) (node : NodeState) :
    NodeInputValues × List GraphError :=
  match update.inputs.join with
  | some edits => applyInputs update.id edits node.inputs
  | none => (node.inputs, [])

def editedNode (node : NodeState) (update : UpdateNodeSchema) : NodeState :=
  let nodeType := update.nodeType.join.getD node.nodeType
  { node with
    nodeType
    displayName := update.displayName.elim node.displayName fun name => displayNameOr name nodeType
    comment := update.comment.getD node.comment
    subgraphId := update.subgraphId.getD node.subgraphId
    storeEnabled := update.storeEnabled.join.or node.storeEnabled
    inputs := (editedInputs update node).1 }

def updateNode (draft : Draft) (update : UpdateNodeSchema) : Draft :=
  match draft.graph.nodes.get? update.id with
  | none => draft.report (.unknownNode update.id)
  | some node =>
    let draft := update.subgraphId.elim draft fun subgraphId => checkSubgraph subgraphId draft
    draft.setNode update.id (editedNode node update) (editedInputs update node).2

def addNode (draft : Draft) (addition : ResolvedNode) : Draft :=
  if addition.id ∈ draft.graph.nodes.keys then draft.report (.duplicateNodeId addition.id)
  else
    let draft := checkSubgraph addition.subgraphId draft
    let inputs := applyInputs addition.id addition.inputs .empty
    draft.setNode addition.id
      { subgraphId := addition.subgraphId
        nodeType := addition.nodeType
        displayName := displayNameOr addition.displayName addition.nodeType
        comment := addition.comment
        storeEnabled := some addition.storeEnabled
        inputs := inputs.1 }
      inputs.2

def deletedEdgeIds (graph : GraphState) (patch : ResolvedPatch) : List String :=
  patch.deleteConnectionIds ++ (graph.edges.entries.filter fun edge =>
    edge.2.source ∈ patch.deleteNodeIds ∨ edge.2.target ∈ patch.deleteNodeIds).map Prod.fst

def deleteEdges (patch : ResolvedPatch) (draft : Draft) : Draft :=
  let unknown := sortedSet (patch.deleteConnectionIds.filter (· ∉ draft.graph.edges.keys))
  let graph :=
    { draft.graph with edges := popAll (deletedEdgeIds draft.graph patch) draft.graph.edges }
  if unknown.isEmpty then { draft with graph }
  else { draft with graph }.report (.unknownConnections unknown)

def newEdge (addition : ResolvedConnection) (source target : NodeState) : EdgeState where
  source := addition.source
  target := addition.target
  sourceHandle := "output-" ++ addition.sourceOutput
  targetHandle := "input-" ++ addition.targetInput
  subgraphId :=
    if addition.subgraphId = none ∧ source.subgraphId = target.subgraphId then source.subgraphId
    else addition.subgraphId

def addEdge (state : Draft × List String) (addition : ResolvedConnection) : Draft × List String :=
  let (draft, created) := state
  if addition.id ∈ draft.graph.edges.keys then
    (draft.report (.duplicateConnectionId addition.id), created)
  else
    match draft.graph.nodes.get? addition.source, draft.graph.nodes.get? addition.target with
    | some source, some target =>
      let edge := newEdge addition source target
      let draft := checkSubgraph edge.subgraphId draft
      ({ draft with
          graph := { draft.graph with edges := draft.graph.edges.set addition.id edge } },
        created ++ [addition.id])
    | _, _ => (draft.report (.unknownConnectionNode addition.id), created)

def editNodes (graph : GraphState) (patch : ResolvedPatch) : Draft :=
  patch.addNodes.foldl addNode
    (patch.updateNodes.foldl updateNode (deleteNodes patch.deleteNodeIds { graph }))

def applyPatchToState (graph : GraphState) (patch : ResolvedPatch) :
    Draft × GraphChanges :=
  let draft := editNodes graph patch
  let (final, createdEdgeIds) := patch.addConnections.foldl addEdge (deleteEdges patch draft, [])
  (final,
    { createdNodeIds := patch.addNodes.map ResolvedNode.id
      updatedNodeIds := patch.updateNodes.map UpdateNodeSchema.id
      deletedNodeIds := patch.deleteNodeIds
      createdEdgeIds
      deletedEdgeIds := deletedEdgeIds draft.graph patch
      touchedCodeNodeIds := final.touchedCodeNodeIds })

lemma foldl_backward {σ α : Type} {P : σ → Prop} {f : σ → α → σ} (hf : ∀ s a, P (f s a) → P s)
    {xs : List α} {s : σ} (h : P (xs.foldl f s)) : P s := by
  induction xs generalizing s with
  | nil => exact h
  | cons x xs ih => exact hf s x (ih h)

variable {ν : Type}

lemma get?_popAll (ids : List String) (d : Dict String ν) (k : String) :
    (popAll ids d).get? k = if k ∈ ids then none else d.get? k := by
  induction ids generalizing d with
  | nil => rfl
  | cons id ids ih =>
    rw [popAll, foldl_cons, ← popAll, ih, get?_erase]
    by_cases hk : k = id <;> simp [hk]

lemma report_errors (draft : Draft) (error : GraphError) : (draft.report error).errors ≠ [] := by
  simp [Draft.report]

variable {draft : Draft}

lemma checkSubgraph_ok {subgraphId : Option String}
    (h : (checkSubgraph subgraphId draft).errors = []) : checkSubgraph subgraphId draft = draft := by
  cases subgraphId with
  | none => rfl
  | some id =>
    rw [checkSubgraph] at h ⊢
    split at h
    · next hmem => exact if_pos hmem
    · exact absurd h (report_errors _ _)

variable {ids : List String}

lemma deleteNodes_ok (h : (deleteNodes ids draft).errors = []) : deleteNodes ids draft =
        { draft with graph := { draft.graph with nodes := popAll ids draft.graph.nodes } } := by
  rw [deleteNodes] at h ⊢
  split at h
  · next hk => rw [if_pos hk]
  · exact absurd h (report_errors _ _)

variable {update : UpdateNodeSchema}

lemma updateNode_ok (h : (updateNode draft update).errors = []) :
    draft.errors = [] ∧ ∃ node, draft.graph.nodes.get? update.id = some node ∧
      (editedInputs update node).2 = [] ∧
      (updateNode draft update).graph = { draft.graph with
        nodes := draft.graph.nodes.set update.id (editedNode node update) } := by
  rw [updateNode] at h ⊢
  split at h
  · exact absurd h (report_errors _ _)
  · next node hn =>
    obtain ⟨hc, hi⟩ := append_eq_nil_iff.mp h
    have hd : (update.subgraphId.elim draft fun subgraphId => checkSubgraph subgraphId draft) =
        draft := by
      cases hsub : update.subgraphId with
      | none => rfl
      | some subgraphId =>
        rw [hsub] at hc
        exact checkSubgraph_ok hc
    rw [hd] at hc
    rw [hn]
    refine ⟨hc, node, rfl, hi, ?_⟩
    rw [hd]
    rfl

def updatesOf (updates : List UpdateNodeSchema) (id : String) : List UpdateNodeSchema :=
  updates.filter fun update => update.id = id

def InputsAccepted : NodeState → List UpdateNodeSchema → Prop
  | _, [] => True
  | node, update :: updates => (editedInputs update node).2 = [] ∧
      InputsAccepted (editedNode node update) updates

structure Updated (before after : GraphState)
    (updates : List UpdateNodeSchema) : Prop where
  edges : after.edges = before.edges
  known : ∀ update ∈ updates, update.id ∈ before.nodes.keys
  node : ∀ k, after.nodes.get? k =
    (before.nodes.get? k).map fun node => (updatesOf updates k).foldl editedNode node
  accepted : ∀ k node, before.nodes.get? k = some node →
    InputsAccepted node (updatesOf updates k)

lemma Updated.nil (graph : GraphState) : Updated graph graph [] where
  edges := rfl
  known := nofun
  node k := by exact (Option.map_id' ..).symm
  accepted _ _ _ := trivial

variable {before : GraphState} {after : GraphState}

lemma Updated.cons {middle : GraphState} {node : NodeState}
    (hn : before.nodes.get? update.id = some node)
    (ha : (editedInputs update node).2 = [])
    (hmid : middle = { before with
      nodes := before.nodes.set update.id (editedNode node update) })
    (h : Updated middle after updates) : Updated before after (update :: updates) where
  edges := by rw [h.edges, hmid]
  known u hu := by
    obtain rfl | hu := mem_cons.mp hu
    · exact Dict.mem_keys.mpr ⟨node, hn⟩
    · obtain ⟨m, hm⟩ := Dict.mem_keys.mp (h.known u hu)
      rw [hmid, get?_set] at hm
      split at hm
      · next hid => exact Dict.mem_keys.mpr ⟨node, hid ▸ hn⟩
      · exact Dict.mem_keys.mpr ⟨m, hm⟩
  node k := by
    rw [h.node, hmid, get?_set, updatesOf, updatesOf]
    by_cases hk : update.id = k
    · subst hk
      simp [hn]
    · simp [hk, Ne.symm hk]
  accepted k m hm := by
    rw [updatesOf, filter_cons]
    by_cases hk : update.id = k
    · subst hk
      obtain rfl : node = m := Option.some.inj (hn.symm.trans hm)
      rw [if_pos (by simp)]
      refine ⟨ha, h.accepted update.id _ ?_⟩
      rw [hmid, get?_set, if_pos rfl]
    · rw [if_neg (by simp [hk])]
      refine h.accepted k m ?_
      rw [hmid, get?_set, if_neg (Ne.symm hk), hm]

lemma updateNodes_ok (h : (updates.foldl updateNode draft).errors = []) :
    draft.errors = [] ∧
      Updated draft.graph (updates.foldl updateNode draft).graph updates := by
  induction updates generalizing draft with
  | nil => exact ⟨h, .nil draft.graph⟩
  | cons update updates ih =>
    obtain ⟨hstep, hr⟩ := ih h
    obtain ⟨he, node, hn, ha, hg⟩ := updateNode_ok hstep
    exact ⟨he, .cons hn ha hg hr⟩

structure Extended {ν : Type} (before after : Dict String ν) (created : List String) : Prop where
  fresh : ∀ id ∈ created, id ∉ before.keys
  present : ∀ id ∈ created, id ∈ after.keys
  kept : ∀ k, k ∉ created → after.get? k = before.get? k

lemma Extended.nil (d : Dict String ν) : Extended d d [] := ⟨nofun, nofun, fun _ _ => rfl⟩

variable {created : List String}

lemma Extended.snoc {before after : Dict String ν} {id : String}
    {value : ν} (h : Extended before after created) (hid : id ∉ after.keys) :
    Extended before (after.set id value) (created ++ [id]) where
  fresh k hk := by
    obtain hk | hk := mem_append.mp hk
    · exact h.fresh k hk
    · obtain rfl := mem_singleton.mp hk
      intro hb
      have hc : k ∉ created := fun hc => hid (h.present k hc)
      have hn := get?_eq_none.mpr hid
      rw [h.kept k hc] at hn
      exact get?_eq_none.mp hn hb
  present k hk := by
    rw [Dict.mem_keys, get?_set]
    split
    · exact ⟨value, rfl⟩
    · next hne =>
      obtain hk | hk := mem_append.mp hk
      · exact Dict.mem_keys.mp (h.present k hk)
      · exact absurd (mem_singleton.mp hk) hne
  kept k hk := by
    rw [mem_append, not_or, mem_singleton] at hk
    rw [get?_set, if_neg hk.2, h.kept k hk.1]

lemma addNode_ok {addition : ResolvedNode} (h : (addNode draft addition).errors = []) :
    draft.errors = [] ∧ addition.id ∉ draft.graph.nodes.keys ∧ ∃ node,
      (addNode draft addition).graph = { draft.graph with
        nodes := draft.graph.nodes.set addition.id node } := by
  rw [addNode] at h ⊢
  split at h
  · exact absurd h (report_errors _ _)
  · next hnew =>
    have hd := checkSubgraph_ok (append_eq_nil_iff.mp h).1
    rw [if_neg hnew, hd]
    rw [hd] at h
    exact ⟨(append_eq_nil_iff.mp h).1, hnew, _, rfl⟩

lemma addNodes_ok {additions : List ResolvedNode} (he : draft.graph.edges = before.edges)
    (hn : Extended before.nodes draft.graph.nodes created)
    (h : (additions.foldl addNode draft).errors = []) :
    draft.errors = [] ∧ (additions.foldl addNode draft).graph.edges = before.edges ∧
      Extended before.nodes (additions.foldl addNode draft).graph.nodes
        (created ++ additions.map ResolvedNode.id) := by
  induction additions generalizing draft created with
  | nil => exact ⟨h, he, by rwa [map_nil, append_nil]⟩
  | cons addition additions ih =>
    have hstep : (addNode draft addition).errors = [] :=
      foldl_backward (P := fun draft : Draft => draft.errors = [])
        (fun draft addition h => (addNode_ok h).1) h
    obtain ⟨herr, hnew, node, hg⟩ := addNode_ok hstep
    have he' : (addNode draft addition).graph.edges = before.edges := by
      rw [hg]
      exact he
    have hn' : Extended before.nodes (addNode draft addition).graph.nodes
        (created ++ [addition.id]) := by
      rw [hg]
      exact hn.snoc hnew
    obtain ⟨-, hr⟩ := ih he' hn' h
    refine ⟨herr, ?_⟩
    rwa [append_assoc] at hr

variable {patch : ResolvedPatch}

lemma deleteEdges_ok (h : (deleteEdges patch draft).errors = []) :
    draft.errors = [] ∧ (deleteEdges patch draft).graph = { draft.graph with
      edges := popAll (deletedEdgeIds draft.graph patch) draft.graph.edges } := by
  rw [deleteEdges] at h ⊢
  split at h
  · next hk =>
    rw [if_pos hk]
    exact ⟨h, rfl⟩
  · exact absurd h (report_errors _ _)

variable {state : Draft × List String}

lemma addEdge_ok {addition : ResolvedConnection} (h : (addEdge state addition).1.errors = []) :
    state.1.errors = [] ∧ addition.id ∉ state.1.graph.edges.keys ∧
      (addEdge state addition).2 = state.2 ++ [addition.id] ∧ ∃ edge,
        (addEdge state addition).1.graph = { state.1.graph with
          edges := state.1.graph.edges.set addition.id edge } := by
  rw [addEdge] at h ⊢
  split at h
  · exact absurd h (report_errors _ _)
  · next hnew =>
    rw [if_neg hnew]
    split at h
    · next source target hs ht =>
      have hd := checkSubgraph_ok h
      dsimp only at h ⊢
      rw [hd] at h ⊢
      exact ⟨h, hnew, rfl, _, rfl⟩
    · exact absurd h (report_errors _ _)

lemma addEdges_ok {additions : List ResolvedConnection} (hn : state.1.graph.nodes = before.nodes)
    (he : Extended before.edges state.1.graph.edges state.2)
    (h : (additions.foldl addEdge state).1.errors = []) :
    state.1.errors = [] ∧ (additions.foldl addEdge state).1.graph.nodes = before.nodes ∧
      Extended before.edges (additions.foldl addEdge state).1.graph.edges
        (additions.foldl addEdge state).2 := by
  induction additions generalizing state with
  | nil => exact ⟨h, hn, he⟩
  | cons addition additions ih =>
    have hstep : (addEdge state addition).1.errors = [] :=
      foldl_backward (P := fun state : Draft × List String => state.1.errors = [])
        (fun state addition h => (addEdge_ok h).1) h
    obtain ⟨herr, hnew, hc, edge, hg⟩ := addEdge_ok hstep
    have hn' : (addEdge state addition).1.graph.nodes = before.nodes := by
      rw [hg]
      exact hn
    have he' : Extended before.edges (addEdge state addition).1.graph.edges
        (addEdge state addition).2 := by
      rw [hg, hc]
      exact he.snoc hnew
    have hr := ih hn' he' h
    exact ⟨herr, hr.2⟩

structure Patched (before after : GraphState) (changes : GraphChanges)
    (updates : List UpdateNodeSchema) (deleteConnectionIds : List String) : Prop where
  updated : changes.updatedNodeIds = updates.map UpdateNodeSchema.id
  known : ∀ id ∈ changes.updatedNodeIds, id ∈ before.nodes.keys ∧ id ∉ changes.deletedNodeIds
  freshNode : ∀ id ∈ changes.createdNodeIds, id ∈ before.nodes.keys → id ∈ changes.deletedNodeIds
  createdNode : ∀ id ∈ changes.createdNodeIds, id ∈ after.nodes.keys
  node : ∀ k, k ∉ changes.createdNodeIds → after.nodes.get? k =
    if k ∈ changes.deletedNodeIds then none
    else (before.nodes.get? k).map fun node => (updatesOf updates k).foldl editedNode node
  accepted : ∀ k node, k ∉ changes.deletedNodeIds → before.nodes.get? k = some node →
    InputsAccepted node (updatesOf updates k)
  freshEdge : ∀ id ∈ changes.createdEdgeIds, id ∈ before.edges.keys → id ∈ changes.deletedEdgeIds
  createdEdge : ∀ id ∈ changes.createdEdgeIds, id ∈ after.edges.keys
  deletedEdge : ∀ k, k ∈ changes.deletedEdgeIds ↔ k ∈ deleteConnectionIds ∨
    ∃ edge, before.edges.get? k = some edge ∧
      (edge.source ∈ changes.deletedNodeIds ∨ edge.target ∈ changes.deletedNodeIds)
  edge : ∀ k, k ∉ changes.createdEdgeIds → after.edges.get? k =
    if k ∈ changes.deletedEdgeIds then none else before.edges.get? k

variable {k : String}

lemma mem_keys_popAll {d : Dict String ν} : k ∈ (popAll ids d).keys ↔ k ∉ ids ∧ k ∈ d.keys := by
  rw [Dict.mem_keys, Dict.mem_keys, get?_popAll]
  by_cases hk : k ∈ ids <;> simp [hk]

variable {graph : GraphState}

lemma mem_deletedEdgeIds : k ∈ deletedEdgeIds graph patch ↔ k ∈ patch.deleteConnectionIds ∨
      ∃ edge, graph.edges.get? k = some edge ∧
        (edge.source ∈ patch.deleteNodeIds ∨ edge.target ∈ patch.deleteNodeIds) := by
  rw [deletedEdgeIds, mem_append, mem_map]
  refine or_congr Iff.rfl ⟨?_, ?_⟩
  · rintro ⟨entry, hentry, rfl⟩
    obtain ⟨hmem, hd⟩ := mem_filter.mp hentry
    exact ⟨entry.2, get?_eq_some.mpr hmem, of_decide_eq_true hd⟩
  · rintro ⟨edge, he, hd⟩
    exact ⟨(k, edge), mem_filter.mpr ⟨get?_eq_some.mp he, decide_eq_true hd⟩, rfl⟩

lemma Updated.mem_keys (h : Updated before after updates) :
    k ∈ after.nodes.keys ↔ k ∈ before.nodes.keys := by
  rw [Dict.mem_keys, Dict.mem_keys, h.node]
  cases before.nodes.get? k <;> simp

lemma editNodes_ok (h : (editNodes graph patch).errors = []) :
    ∃ updated, Updated { graph with nodes := popAll patch.deleteNodeIds graph.nodes } updated
        patch.updateNodes ∧
      (editNodes graph patch).graph.edges = graph.edges ∧
      Extended updated.nodes (editNodes graph patch).graph.nodes
        (patch.addNodes.map ResolvedNode.id) := by
  have hb : (patch.updateNodes.foldl updateNode
      (deleteNodes patch.deleteNodeIds { graph })).errors = [] :=
    foldl_backward (P := fun draft : Draft => draft.errors = [])
      (fun draft addition h => (addNode_ok h).1) h
  obtain ⟨hd, hu⟩ := updateNodes_ok hb
  obtain ⟨-, he, ha⟩ := addNodes_ok rfl (.nil _) h
  have hg := congrArg Draft.graph (deleteNodes_ok hd)
  rw [hg] at hu
  exact ⟨_, hu, he.trans hu.edges, ha⟩

theorem patched_of_applyPatchToState (h : (applyPatchToState graph patch).1.errors = []) :
    Patched graph (applyPatchToState graph patch).1.graph
      (applyPatchToState graph patch).2 patch.updateNodes patch.deleteConnectionIds := by
  have hd : (deleteEdges patch (editNodes graph patch)).errors = [] :=
    foldl_backward (P := fun state : Draft × List String => state.1.errors = [])
      (fun state addition h => (addEdge_ok h).1) h
  obtain ⟨herr, hg⟩ := deleteEdges_ok hd
  obtain ⟨updated, hu, hedg, ha⟩ := editNodes_ok herr
  have hstarted : Extended (deleteEdges patch (editNodes graph patch)).graph.edges
      (deleteEdges patch (editNodes graph patch)).graph.edges [] := .nil _
  obtain ⟨-, hn, he⟩ := addEdges_ok rfl hstarted h
  rw [hg] at hn he
  have hkeys : ∀ k, k ∈ updated.nodes.keys ↔ k ∉ patch.deleteNodeIds ∧ k ∈ graph.nodes.keys :=
    fun k => hu.mem_keys.trans mem_keys_popAll
  constructor
  case updated => rfl
  case known =>
    intro id hid
    obtain ⟨update, hupd, rfl⟩ := mem_map.mp hid
    exact (mem_keys_popAll.mp (hu.known update hupd)).symm
  case freshNode =>
    intro id hid hb
    by_contra hkept
    exact ha.fresh id hid ((hkeys id).mpr ⟨hkept, hb⟩)
  case createdNode =>
    intro id hid
    rw [applyPatchToState]
    rw [hn]
    exact ha.present id hid
  case node =>
    intro k hk
    rw [applyPatchToState]
    rw [hn, ha.kept k hk, hu.node, get?_popAll]
    split <;> rfl
  case accepted =>
    intro k node hkept hnode
    refine hu.accepted k node ?_
    rw [get?_popAll]
    exact (if_neg hkept).trans hnode
  case freshEdge =>
    intro id hid hb
    by_contra hkept
    refine he.fresh id hid (mem_keys_popAll.mpr ⟨hkept, ?_⟩)
    rwa [hedg]
  case createdEdge => exact he.present
  case deletedEdge => exact fun k => mem_deletedEdgeIds.trans (by rw [hedg]; rfl)
  case edge =>
    intro k hk
    have hkept := he.kept k hk
    rw [get?_popAll, hedg] at hkept
    exact hkept

variable {nodeId : String}

lemma applyInput_ok {state : NodeInputValues × List GraphError}
    {edit : String × Option InputValueSchema} (h : (applyInput nodeId state edit).2 = []) :
    state.2 = [] ∧ ∀ name, ((applyInput nodeId state edit).1.get? name).isSome =
      if name = edit.1 then edit.2.isSome else (state.1.get? name).isSome := by
  obtain ⟨key, value⟩ := edit
  cases value with
  | none =>
    refine ⟨h, fun name => ?_⟩
    rw [applyInput, get?_erase]
    split <;> rfl
  | some value =>
    rw [applyInput] at h ⊢
    dsimp only at h ⊢
    split at h
    · refine ⟨h, fun name => ?_⟩
      rw [get?_set]
      split <;> rfl
    · simp at h

lemma applyInputs_ok (edits : InputEdits) {inputs : NodeInputValues}
    (h : (applyInputs nodeId edits inputs).2 = []) (name : String) :
    ((applyInputs nodeId edits inputs).1.get? name).isSome =
      ((edits.get? name).map Option.isSome).getD (inputs.get? name).isSome := by
  obtain ⟨entries, nodup⟩ := edits
  rw [applyInputs] at h ⊢
  generalize hs : ((inputs, []) : NodeInputValues × List GraphError) = state at h ⊢
  obtain rfl : state.1 = inputs := hs ▸ rfl
  clear hs
  induction entries generalizing state with
  | nil => rfl
  | cons edit entries ih =>
    obtain ⟨hn, hnod⟩ := nodup_cons.mp nodup
    have hstep : (applyInput nodeId state edit).2 = [] :=
      foldl_backward (P := fun state : NodeInputValues × List GraphError => state.2 = [])
        (fun state edit h => (applyInput_ok h).1) h
    rw [foldl_cons, ih hnod _ h, (applyInput_ok hstep).2 name, get?_cons]
    by_cases hname : edit.1 = name
    · subst hname
      have hnone : (⟨entries, hnod⟩ : InputEdits).get? edit.1 = none := get?_eq_none.mpr hn
      simp [hnone]
    · simp [hname, Ne.symm hname]

def lastSet {α : Type} (field : UpdateNodeSchema → Option α) (updates : List UpdateNodeSchema) :
    Option α :=
  (updates.filterMap field).getLast?

variable {node : NodeState}

lemma foldl_editedNode {α : Type} {field : UpdateNodeSchema → Option α} {g : NodeState → α}
    (hg : ∀ node update, (editedInputs update node).2 = [] →
      g (editedNode node update) = (field update).getD (g node))
    (h : InputsAccepted node updates) :
    g (updates.foldl editedNode node) = (lastSet field updates).getD (g node) := by
  induction updates generalizing node with
  | nil => rfl
  | cons update updates ih =>
    rw [foldl_cons, ih h.2, hg node update h.1, lastSet, lastSet, filterMap_cons]
    cases field update with
    | none => rfl
    | some value =>
      rw [List.getLast?_cons]
      rfl

def inputEdit (name : String) (update : UpdateNodeSchema) : Option Bool :=
  (update.inputs.join.bind fun edits => edits.get? name).map Option.isSome

lemma isSome_editedNode (name : String) (node : NodeState) (update : UpdateNodeSchema)
    (h : (editedInputs update node).2 = []) :
    ((editedNode node update).inputs.get? name).isSome =
      (inputEdit name update).getD (node.inputs.get? name).isSome := by
  rw [editedNode, inputEdit]
  rw [editedInputs] at h ⊢
  cases hi : update.inputs.join with
  | none => rfl
  | some edits =>
    rw [hi] at h
    exact applyInputs_ok edits h name

lemma storeEnabled_foldl (h : (updates.foldl editedNode node).storeEnabled = none) :
    node.storeEnabled = none := by
  refine foldl_backward (P := fun node : NodeState => node.storeEnabled = none)
    (fun node update h => ?_) h
  exact (Option.or_eq_none_iff.mp h).2

end Dvt.Mcp
