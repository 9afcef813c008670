import Dvt.Pipelines.GraphOperations

/-! The dirty seeds of a graph operation against the nodes it changes. -/

namespace Dvt.Pipelines

open Library List Table

variable {choice : String → ℕ} {graph after : StoredGraph} {payload : GraphOperationsAggregated}
  {rows : ProcessedRows} {id : String}
variable {row : GraphNodeRecord} {patch : GraphNodeUIUpdate}

def SameRow (old row : GraphNodeRecord) : Prop :=
  old.uiId = row.uiId ∧ old.name = row.name ∧ old.inputValues = row.inputValues ∧
    old.storeEnabled = row.storeEnabled

def Changed (before after : StoredGraph) (row : GraphNodeRecord) : Prop :=
  (¬ ∃ old ∈ before.nodes.rows, SameRow old row) ∨ ∃ edge : StoredEdge, edge.target = row.uiId ∧
      ¬ (edge ∈ before.edges.rows ↔ edge ∈ after.edges.rows)

def SeedsComplete (before after : StoredGraph) (seeds : List String) : Prop :=
  ∀ row ∈ after.nodes.rows, Changed before after row → row.uiId ∈ seeds

lemma chosen_mem {α : Type} {choice : ℕ} {patches : List α} {patch : α}
    (h : chosen choice patches = some patch) : patch ∈ patches := mem_of_getElem? h

lemma edgePatch_some {row : StoredEdge} {patch : GraphEdgeUIUpdate}
    (h : edgePatch choice payload row = some patch) :
    patch ∈ payload.edgesToUpdate ∧ patch.id = some row.uiId := by
  simpa using mem_filter.mp (chosen_mem h)

structure Applied (choice : String → ℕ) (graph : StoredGraph) (payload : GraphOperationsAggregated)
    (after : StoredGraph) (rows : ProcessedRows) : Prop where
  mem_nodes : ∀ row, row ∈ after.nodes.rows ↔
    (∃ old ∈ graph.nodes.rows, old.uiId ∉ payload.nodesToDelete ∧
      updateNode choice payload old = row) ∨
    ∃ node ∈ payload.nodesToCreate, updateNode choice payload node.toPersistent = row
  mem_edges : ∀ row, row ∈ after.edges.rows ↔
    (∃ old ∈ graph.edges.rows, old.uiId ∉ payload.edgesToDelete ∧
      updateEdge choice payload old = row) ∨
    ∃ edge ∈ payload.edgesToCreate, updateEdge choice payload edge = row
  nodesCreated : rows.nodesCreated = payload.nodesToCreate.map GraphNodeUI.id
  edgesCreated : rows.edgesCreated = payload.edgesToCreate.map StoredEdge.uiId
  nodesUpdated : ∀ old ∈ graph.nodes.rows, old.uiId ∉ payload.nodesToDelete →
    (nodePatch choice payload old).isSome → old.uiId ∈ rows.nodesUpdated
  edgesDeleted : ∀ old ∈ graph.edges.rows, old.uiId ∈ payload.edgesToDelete →
    old.uiId ∈ rows.edgesDeleted
  edgesUpdated : ∀ old ∈ graph.edges.rows, old.uiId ∉ payload.edgesToDelete →
    (edgePatch choice payload old).isSome → old.uiId ∈ rows.edgesUpdated

lemma applied_of_apply (h : applyGraphOperations choice graph payload = some (after, rows)) :
    Applied choice graph payload after rows := by
  obtain ⟨nodes, hn, h⟩ := Option.bind_eq_some_iff.mp h
  obtain ⟨edges, he, h⟩ := Option.bind_eq_some_iff.mp h
  cases h
  have hnr := rows_insertAll hn
  have her := rows_insertAll he
  constructor
  · intro row
    change row ∈ nodes.rows.map (updateNode choice payload) ↔ _
    simp [hnr, and_assoc]
  · intro row
    change row ∈ edges.rows.map (updateEdge choice payload) ↔ _
    simp [her, and_assoc]
  · rfl
  · rfl
  · intro old hold hk hp
    refine mem_map.mpr ⟨old, mem_select.mpr ⟨?_, hp⟩, rfl⟩
    rw [hnr]
    exact mem_append_left _ (mem_filter.mpr ⟨hold, by simpa using hk⟩)
  · intro old hold hd
    exact mem_map.mpr ⟨old, mem_select.mpr ⟨hold, by simpa using hd⟩, rfl⟩
  · intro old hold hk hp
    refine mem_map.mpr ⟨old, mem_select.mpr ⟨?_, hp⟩, rfl⟩
    rw [her]
    exact mem_append_left _ (mem_filter.mpr ⟨hold, by simpa using hk⟩)

lemma sameRow_patchNode (h : nodePatchUpdatesComputation patch = false)
    (row : GraphNodeRecord) : SameRow row (patchNode patch row) := by
  simp only [nodePatchUpdatesComputation, Bool.or_eq_false_iff, Option.isSome_eq_false_iff,
    Option.isNone_iff_eq_none] at h
  obtain ⟨⟨hname, hi⟩, hstore⟩ := h
  simp [SameRow, patchNode, coalesce, nonEmptyInputs, hname, hi, hstore]

lemma patchEdge_subgraphOnly {patch : GraphEdgeUIUpdate} (h : isSubgraphOnlyEdgePatch patch = true)
    (row : StoredEdge) : patchEdge patch row = row := by
  simp only [isSubgraphOnlyEdgePatch, Bool.and_eq_true, Option.isNone_iff_eq_none] at h
  obtain ⟨⟨⟨⟨-, hs⟩, hsh⟩, ht⟩, hth⟩ := h
  simp [patchEdge, coalesce, hs, hsh, ht, hth]

lemma target_patchEdge (patch : GraphEdgeUIUpdate) (row : StoredEdge) :
    (patchEdge patch row).target = row.target ∨
      patch.target = some (some (patchEdge patch row).target) := by
  rcases h : patch.target with - | - | target <;> simp [patchEdge, coalesce, h]

lemma exists_patch_of_updateNode (h : ¬ SameRow row (updateNode choice payload row)) :
    ∃ patch, nodePatch choice payload row = some patch ∧
      nodePatchUpdatesComputation patch = true := by
  rw [updateNode] at h
  cases hp : nodePatch choice payload row with
  | none =>
    rw [hp] at h
    exact absurd ⟨rfl, rfl, rfl, rfl⟩ h
  | some patch =>
    rw [hp] at h
    refine ⟨patch, rfl, ?_⟩
    by_contra hu
    exact h (sameRow_patchNode (Bool.eq_false_iff.mpr hu) row)

lemma exists_patch_of_updateEdge {row : StoredEdge} (h : updateEdge choice payload row ≠ row) :
    ∃ patch, edgePatch choice payload row = some patch ∧ isSubgraphOnlyEdgePatch patch = false ∧
      updateEdge choice payload row = patchEdge patch row := by
  rw [updateEdge] at h ⊢
  cases hp : edgePatch choice payload row with
  | none =>
    rw [hp] at h
    exact absurd rfl h
  | some patch =>
    rw [hp] at h
    refine ⟨patch, rfl, ?_, rfl⟩
    by_contra ho
    exact h (patchEdge_subgraphOnly (Bool.eq_true_of_not_eq_false ho) row)

inductive Seeded (graph : StoredGraph) (payload : GraphOperationsAggregated) (id : String) : Prop
  | created (node : GraphNodeUI) : node ∈ payload.nodesToCreate → node.id = id → Seeded ..
  | patched (patch : GraphNodeUIUpdate) : patch ∈ payload.nodesToUpdate →
      nodePatchUpdatesComputation patch = true → patch.id = id → Seeded ..
  | linked (edge : StoredEdge) : edge ∈ payload.edgesToCreate → edge.target = id → Seeded ..
  | orphaned (edge : StoredEdge) : edge ∈ graph.edges.rows → edge.source ∈ payload.nodesToDelete →
      edge.target = id → Seeded ..
  | unlinked (edge : StoredEdge) : edge ∈ graph.edges.rows → edge.uiId ∈ payload.edgesToDelete →
      edge.target = id → Seeded ..
  | rewired (patch : GraphEdgeUIUpdate) (edge : StoredEdge) : patch ∈ payload.edgesToUpdate →
      isSubgraphOnlyEdgePatch patch = false → edge ∈ graph.edges.rows →
      patch.id = some edge.uiId → edge.target = id → Seeded ..
  | retargeted (patch : GraphEdgeUIUpdate) : patch ∈ payload.edgesToUpdate →
      isSubgraphOnlyEdgePatch patch = false → patch.target = some (some id) → id ≠ "" → Seeded ..

lemma mem_edgePatchSeeds {patch : GraphEdgeUIUpdate} :
    id ∈ edgePatchSeeds graph patch ↔ isSubgraphOnlyEdgePatch patch = false ∧
      ((∃ edge ∈ graph.edges.rows, patch.id = some edge.uiId ∧ edge.target = id) ∨
        patch.target = some (some id) ∧ id ≠ "") := by
  rw [edgePatchSeeds]
  split_ifs with h
  · simp [h]
  · simp [h, and_assoc, Option.join_eq_some_iff]

lemma mem_collectMetadataSeedNodeIds : id ∈ collectMetadataSeedNodeIds payload ↔
    (∃ patch ∈ payload.nodesToUpdate, nodePatchUpdatesInputValues patch = true ∧ patch.id = id) ∨
      ∃ edge ∈ payload.edgesToCreate, edge.target = id := by
  simp [collectMetadataSeedNodeIds, and_assoc]

lemma mem_collectComputationalSeedNodeIds : id ∈ collectComputationalSeedNodeIds graph payload ↔
      Seeded graph payload id ∧ id ∉ payload.nodesToDelete := by
  simp only [collectComputationalSeedNodeIds, mem_sortedSet, mem_filter, mem_append,
    mem_collectMetadataSeedNodeIds, mem_map, mem_flatMap, mem_edgePatchSeeds,
    decide_eq_true_eq]
  refine and_congr_left fun _ => ⟨?_, ?_⟩
  · rintro ((((((⟨patch, hmem, hi, rfl⟩ | ⟨edge, hmem, rfl⟩) | ⟨node, hmem, rfl⟩) |
      ⟨patch, ⟨hmem, hu⟩, rfl⟩) | ⟨edge, ⟨hmem, hs⟩, rfl⟩) |
      ⟨edge, ⟨hmem, hd⟩, rfl⟩) |
      ⟨patch, hmem, hp, ⟨edge, he, hid, rfl⟩ | ⟨ht, hne⟩⟩)
    · rw [nodePatchUpdatesInputValues] at hi
      exact .patched patch hmem (by simp [nodePatchUpdatesComputation, hi]) rfl
    · exact .linked edge hmem rfl
    · exact .created node hmem rfl
    · exact .patched patch hmem hu rfl
    · exact .orphaned edge hmem hs rfl
    · exact .unlinked edge hmem hd rfl
    · exact .rewired patch edge hmem hp he hid rfl
    · exact .retargeted patch hmem hp ht hne
  · rintro (⟨node, hmem, h⟩ | ⟨patch, hmem, hu, h⟩ | ⟨edge, hmem, h⟩ |
      ⟨edge, hmem, hs, h⟩ | ⟨edge, hmem, hd, h⟩ | ⟨patch, edge, hmem, hp, he, hid, h⟩ |
      ⟨patch, hmem, hp, ht, hne⟩)
    · exact .inl (.inl (.inl (.inl (.inr ⟨node, hmem, h⟩))))
    · exact .inl (.inl (.inl (.inr ⟨patch, ⟨hmem, hu⟩, h⟩)))
    · exact .inl (.inl (.inl (.inl (.inl (.inr ⟨edge, hmem, h⟩)))))
    · exact .inl (.inl (.inr ⟨edge, ⟨hmem, hs⟩, h⟩))
    · exact .inl (.inr ⟨edge, ⟨hmem, hd⟩, h⟩)
    · exact .inr ⟨patch, hmem, hp, .inl ⟨edge, he, hid, h⟩⟩
    · exact .inr ⟨patch, hmem, hp, .inr ⟨ht, hne⟩⟩

lemma requested_of_seeded (h : Seeded graph payload id) :
    hasRequestedComputationalChanges payload = true := by
  simp only [hasRequestedComputationalChanges, Bool.or_eq_true, Bool.not_eq_true',
    isEmpty_eq_false_iff_exists_mem, any_eq_true]
  cases h with
  | created node hmem => exact .inl (.inl (.inl (.inl (.inl ⟨node, hmem⟩))))
  | patched patch hmem hu => exact .inr ⟨patch, hmem, hu⟩
  | linked edge hmem => exact .inl (.inl (.inl (.inr ⟨edge, hmem⟩)))
  | orphaned edge hmem hs => exact .inl (.inl (.inl (.inl (.inr ⟨_, hs⟩))))
  | unlinked edge hmem hd => exact .inl (.inl (.inr ⟨_, hd⟩))
  | rewired patch edge hmem hp | retargeted patch hmem hp =>
    exact .inl (.inr ⟨patch, hmem, hp⟩)

section

variable {subgraphsChanged : Bool}

def SeededBy (graph : StoredGraph) (payload : GraphOperationsAggregated) (rows : ProcessedRows)
    (id : String) : Prop :=
  Seeded graph payload id ∧ ∃ written, written ∈ rows.nodesDeleted ∨ written ∈ rows.nodesCreated ∨
    written ∈ rows.nodesUpdated ∨ written ∈ rows.edgesDeleted ∨ written ∈ rows.edgesCreated ∨
    written ∈ rows.edgesUpdated

lemma mem_markedSeeds_of_seededBy (h : SeededBy graph payload rows id)
    (hk : id ∉ payload.nodesToDelete) (hne : id ≠ "") :
    id ∈ markedSeeds graph payload rows subgraphsChanged := by
  have hp : hasProcessedGraphChanges rows subgraphsChanged = true := by
    have hrows : _ ∨ subgraphsChanged = true := .inl h.2
    simpa only [hasProcessedGraphChanges, Bool.or_eq_true, Bool.not_eq_true',
      isEmpty_eq_false_iff_exists_mem, exists_or, or_assoc] using hrows
  rw [markedSeeds, hp, requested_of_seeded h.1]
  exact mem_filter.mpr ⟨mem_collectComputationalSeedNodeIds.mpr ⟨h.1, hk⟩, by simpa using hne⟩

lemma not_mem_markedSeeds (h : id = "" ∨ id ∈ payload.nodesToDelete) :
    id ∉ markedSeeds graph payload rows subgraphsChanged := by
  rw [markedSeeds]
  split_ifs
  · intro hmem
    obtain ⟨hs, hne⟩ := mem_filter.mp hmem
    rcases h with rfl | hd
    · simp at hne
    · exact (mem_collectComputationalSeedNodeIds.mp hs).2 hd
  · exact not_mem_nil

variable (happly : Applied choice graph payload after rows)

include happly

lemma seededBy_of_updateNode {old : GraphNodeRecord} (hold : old ∈ graph.nodes.rows)
    (hk : old.uiId ∉ payload.nodesToDelete)
    (hc : ¬ SameRow old (updateNode choice payload old)) :
    SeededBy graph payload rows old.uiId := by
  obtain ⟨patch, hp, hu⟩ := exists_patch_of_updateNode hc
  obtain ⟨hmem, hid⟩ := by simpa using mem_filter.mp (chosen_mem hp)
  refine ⟨.patched patch hmem hu hid, old.uiId, .inr (.inr (.inl ?_))⟩
  exact happly.nodesUpdated old hold hk (by rw [hp]; rfl)

lemma seededBy_of_updateEdge {old : StoredEdge} (hold : old ∈ graph.edges.rows)
    (hk : old.uiId ∉ payload.edgesToDelete) (hc : updateEdge choice payload old ≠ old)
    (ht : old.target = id ∨ (updateEdge choice payload old).target = id) (hne : id ≠ "") :
    SeededBy graph payload rows id := by
  obtain ⟨patch, hp, ho, hu⟩ := exists_patch_of_updateEdge hc
  obtain ⟨hmem, hid⟩ := edgePatch_some hp
  have hw := happly.edgesUpdated old hold hk (by rw [hp]; rfl)
  refine ⟨?_, old.uiId, .inr (.inr (.inr (.inr (.inr hw))))⟩
  rcases ht with ht | ht
  · exact .rewired patch old hmem ho hold hid ht
  rw [hu] at ht
  rcases target_patchEdge patch old with hs | hpat
  · exact .rewired patch old hmem ho hold hid (hs ▸ ht)
  · exact .retargeted patch hmem ho (ht ▸ hpat) hne

variable {edge : StoredEdge}

lemma seededBy_of_createdEdge
    (he : edge ∈ payload.edgesToCreate) (ht : (updateEdge choice payload edge).target = id)
    (hne : id ≠ "") : SeededBy graph payload rows id := by
  have hw : edge.uiId ∈ rows.edgesCreated :=
    happly.edgesCreated ▸ mem_map_of_mem he
  refine ⟨?_, edge.uiId, .inr (.inr (.inr (.inr (.inl hw))))⟩
  by_cases hs : updateEdge choice payload edge = edge
  · exact .linked edge he (hs ▸ ht)
  obtain ⟨patch, hpat, ho, hu⟩ := exists_patch_of_updateEdge hs
  rw [hu] at ht
  rcases target_patchEdge patch edge with hk | hp
  · exact .linked edge he (hk ▸ ht)
  · exact .retargeted patch (edgePatch_some hpat).1 ho (ht ▸ hp) hne

lemma seededBy_of_edge (ht : edge.target = id)
    (hc : ¬ (edge ∈ graph.edges.rows ↔ edge ∈ after.edges.rows)) (hne : id ≠ "") :
    SeededBy graph payload rows id := by
  by_cases hb : edge ∈ graph.edges.rows
  · -- the edge is gone: it was deleted, or its row was rewritten
    have ha : edge ∉ after.edges.rows := fun h => hc (iff_of_true hb h)
    by_cases hd : edge.uiId ∈ payload.edgesToDelete
    · exact ⟨.unlinked edge hb hd ht, edge.uiId,
        .inr (.inr (.inr (.inl (happly.edgesDeleted edge hb hd))))⟩
    · refine seededBy_of_updateEdge happly hb hd (fun hs => ha ?_) (.inl ht) hne
      exact (happly.mem_edges edge).mpr (.inl ⟨edge, hb, hd, hs⟩)
  · have ha : edge ∈ after.edges.rows := by
      by_contra h
      exact hc (iff_of_false hb h)
    rcases (happly.mem_edges edge).mp ha with ⟨old, hold, hk, hu⟩ | ⟨new, hnew, hu⟩
    · refine seededBy_of_updateEdge happly hold hk (fun hs => hb ?_) (.inr (hu ▸ ht)) hne
      rwa [← hu, hs]
    · exact seededBy_of_createdEdge happly hnew (hu ▸ ht) hne

lemma seededBy_of_changed (hrow : row ∈ after.nodes.rows)
    (hc : Changed graph after row) (hne : row.uiId ≠ "") :
    SeededBy graph payload rows row.uiId := by
  rcases hc with hs | ⟨edge, ht, he⟩
  · rcases (happly.mem_nodes row).mp hrow with ⟨old, hold, hk, rfl⟩ | ⟨node, hn, rfl⟩
    · rw [uiId_updateNode]
      exact seededBy_of_updateNode happly hold hk fun hsame => hs ⟨old, hold, hsame⟩
    · rw [uiId_updateNode]
      exact ⟨.created node hn rfl, node.id, .inr (.inl (happly.nodesCreated ▸ mem_map_of_mem hn))⟩
  · exact seededBy_of_edge happly ht he hne

lemma seedsComplete_iff_unchanged :
    SeedsComplete graph after (markedSeeds graph payload rows subgraphsChanged) ↔
      ∀ row ∈ after.nodes.rows, (row.uiId = "" ∨ row.uiId ∈ payload.nodesToDelete) →
        ¬ Changed graph after row := by
  constructor
  · intro hcom row hrow hu hc
    exact not_mem_markedSeeds hu (hcom row hrow hc)
  · intro h row hrow hc
    have hm : ¬ (row.uiId = "" ∨ row.uiId ∈ payload.nodesToDelete) :=
      fun hu => h row hrow hu hc
    rw [not_or] at hm
    exact mem_markedSeeds_of_seededBy (seededBy_of_changed happly hrow hc hm.1) hm.2 hm.1

end

structure LeavesIncoming (choice : String → ℕ) (graph : StoredGraph)
    (payload : GraphOperationsAggregated) (id : String) : Prop where
  stored : ∀ edge ∈ graph.edges.rows, edge.target = id →
    (edge.uiId ∉ payload.edgesToDelete ∧ updateEdge choice payload edge = edge) ∨
      ∃ new ∈ payload.edgesToCreate, updateEdge choice payload new = edge
  kept : ∀ edge ∈ graph.edges.rows, edge.uiId ∉ payload.edgesToDelete →
    (updateEdge choice payload edge).target = id → updateEdge choice payload edge = edge
  created : ∀ new ∈ payload.edgesToCreate, (updateEdge choice payload new).target = id →
    updateEdge choice payload new ∈ graph.edges.rows

/-- The nodes that are never marked, those deleted and created again and the one without a name,
are written back as they were. -/
structure LeavesUnmarked (choice : String → ℕ) (graph : StoredGraph)
    (payload : GraphOperationsAggregated) : Prop where
  recreated : ∀ node ∈ payload.nodesToCreate, (node.id = "" ∨ node.id ∈ payload.nodesToDelete) →
    (∃ old ∈ graph.nodes.rows, SameRow old (updateNode choice payload node.toPersistent)) ∧
      LeavesIncoming choice graph payload node.id
  unnamed : ∀ old ∈ graph.nodes.rows, old.uiId = "" → old.uiId ∉ payload.nodesToDelete →
    SameRow old (updateNode choice payload old) ∧ LeavesIncoming choice graph payload old.uiId

lemma edge_eq_of_uiId {a b : StoredEdge} (ha : a ∈ graph.edges.rows) (hb : b ∈ graph.edges.rows)
    (h : a.uiId = b.uiId) : a = b := eq_of_clash ha hb h

lemma leavesIncoming_iff (happly : Applied choice graph payload after rows) :
    LeavesIncoming choice graph payload id ↔ ∀ edge : StoredEdge, edge.target = id →
      (edge ∈ graph.edges.rows ↔ edge ∈ after.edges.rows) := by
  constructor
  · intro h edge ht
    rw [happly.mem_edges]
    constructor
    · intro hb
      rcases h.stored edge hb ht with ⟨hk, hs⟩ | hnew
      · exact .inl ⟨edge, hb, hk, hs⟩
      · exact .inr hnew
    · rintro (⟨old, hold, hk, rfl⟩ | ⟨new, hnew, rfl⟩)
      · rwa [h.kept old hold hk ht]
      · exact h.created new hnew ht
  · intro h
    constructor
    · intro edge he ht
      rcases (happly.mem_edges edge).mp ((h edge ht).mp he) with
        ⟨old, hold, hk, hu⟩ | hnew
      · have hs : old = edge := by
          apply edge_eq_of_uiId hold he
          rw [← hu, uiId_updateEdge]
        subst hs
        exact .inl ⟨hk, hu⟩
      · exact .inr hnew
    · intro edge he hk ht
      have ha := (happly.mem_edges _).mpr (.inl ⟨edge, he, hk, rfl⟩)
      exact edge_eq_of_uiId ((h _ ht).mpr ha) he (uiId_updateEdge choice payload edge)
    · intro new hnew ht
      exact (h _ ht).mpr ((happly.mem_edges _).mpr (.inr ⟨new, hnew, rfl⟩))

lemma not_changed_iff (happly : Applied choice graph payload after rows) :
    ¬ Changed graph after row ↔ (∃ old ∈ graph.nodes.rows, SameRow old row) ∧
      LeavesIncoming choice graph payload row.uiId := by
  rw [leavesIncoming_iff happly, Changed, not_or, not_not]
  simp only [not_exists, not_and, not_not]

theorem seedsComplete_iff_leavesUnmarked {subgraphsChanged : Bool}
    (happly : applyGraphOperations choice graph payload = some (after, rows)) :
    SeedsComplete graph after (markedSeeds graph payload rows subgraphsChanged) ↔
      LeavesUnmarked choice graph payload := by
  have happlied := applied_of_apply happly
  rw [seedsComplete_iff_unchanged happlied]
  constructor
  · intro h
    constructor
    · intro node hnode hunmarked
      have hrow := (happlied.mem_nodes _).mpr (.inr ⟨node, hnode, rfl⟩)
      have hid : (updateNode choice payload node.toPersistent).uiId = node.id :=
        uiId_updateNode choice payload _
      rw [← hid] at hunmarked ⊢
      exact (not_changed_iff happlied).mp (h _ hrow hunmarked)
    · intro old hold hunnamed hkept
      have hrow := (happlied.mem_nodes _).mpr (.inl ⟨old, hold, hkept, rfl⟩)
      have hid := uiId_updateNode choice payload old
      obtain ⟨⟨stored, hstored, hsame⟩, hincoming⟩ :=
        (not_changed_iff happlied).mp (h _ hrow (.inl (hid.trans hunnamed)))
      obtain rfl := eq_of_clash hstored hold (hsame.1.trans hid)
      exact ⟨hsame, hid ▸ hincoming⟩
  · intro h row hrow hunmarked
    rw [not_changed_iff happlied]
    rcases (happlied.mem_nodes row).mp hrow with ⟨old, hold, hkept, rfl⟩ | ⟨node, hnode, rfl⟩
    · rw [uiId_updateNode] at hunmarked ⊢
      have hunnamed := hunmarked.resolve_right hkept
      obtain ⟨hsame, hincoming⟩ := h.unnamed old hold hunnamed hkept
      exact ⟨⟨old, hold, hsame⟩, hincoming⟩
    · rw [uiId_updateNode] at hunmarked ⊢
      exact h.recreated node hnode hunmarked

def loadNode (name : String) : GraphNodeUI :=
  { id := "load", type := "ReadCsv", name := name }

def loadGraph : StoredGraph where
  nodes := ⟨[(loadNode "Load").toPersistent], pairwise_singleton _ _⟩
  edges := .empty

def renamePatch : GraphOperationsAggregated :=
  { nodesToUpdate := [{ id := "load", data := some { name := some (some "Read") } }] }

def renameByRecreation : GraphOperationsAggregated :=
  { nodesToDelete := ["load"], nodesToCreate := [loadNode "Read"] }

theorem seedsComplete_renamePatch :
    ∃ after rows, applyGraphOperations (fun _ => 0) loadGraph renamePatch = some (after, rows) ∧
      SeedsComplete loadGraph after (markedSeeds loadGraph renamePatch rows false) := by
  refine ⟨_, _, rfl, (seedsComplete_iff_leavesUnmarked rfl).mpr ⟨?_, ?_⟩⟩
  · intro node hnode
    cases hnode
  · intro old hold hunnamed
    rw [mem_singleton.mp hold] at hunnamed
    exact absurd hunnamed (by decide)

theorem not_seedsComplete_renameByRecreation : ∃ after rows,
      applyGraphOperations (fun _ => 0) loadGraph renameByRecreation = some (after, rows) ∧
      markedSeeds loadGraph renameByRecreation rows false = [] ∧
      ¬ SeedsComplete loadGraph after (markedSeeds loadGraph renameByRecreation rows false) := by
  refine ⟨_, _, rfl, by decide +kernel, fun h => ?_⟩
  have hmem := h (loadNode "Read").toPersistent (by decide +kernel) (.inl ?_)
  · revert hmem
    decide +kernel
  · rintro ⟨old, hold, hsame⟩
    rw [mem_singleton.mp hold] at hsame
    exact absurd hsame.2.1 (by decide)

end Dvt.Pipelines
