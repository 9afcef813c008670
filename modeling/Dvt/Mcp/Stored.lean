import Dvt.Mcp.Application

/-! The rows of nodes and edges after a patch. -/

namespace Dvt.Mcp

open Library List Table Dict
open Pipelines (coalesce chosen sortedSet mem_sortedSet)

namespace Application

variable {service : Service} {uuids : Uuids} {db : Database} {patch : GraphPatchSchema}
  (app : Application service uuids db patch) {choice : String → ℕ}

def before : GraphState := loadSnapshot db app.project

lemma owns_newRecord {β : Type} (uiId : String) (columns : β) :
    app.project.owns (newRecord app.project app.project.userId uiId columns) = true := by
  simp [ProjectRecord.owns, newRecord]

lemma owns_columns {β : Type} {row : Record β} (h : app.project.owns row = true) :
    row.projectId = app.project.id ∧ row.userId = app.project.userId := by
  simp only [ProjectRecord.owns, Bool.and_eq_true, decide_eq_true_eq] at h
  exact ⟨h.2, h.1.2⟩

lemma mem_deleteBy {β : Type} {ids : List String} {table : Table (recordSchema β)} {row : Record β}
    (h : app.project.owns row = true) :
    row ∈ (deleteBy app.project (sortedSet ids) table).rows ↔ row ∈ table.rows ∧ row.uiId ∉ ids := by
  rw [deleteBy, rows_delete]
  simp [(app.owns_columns h).1, mem_sortedSet]

section

lemma rows_nodes : app.nodes.rows =
    (deleteBy app.project (sortedSet app.changes.deletedNodeIds) db.nodes).rows ++
      app.renamedNodes.map fun node =>
        newRecord app.project app.project.userId node.id node.columns :=
  rows_insertAll app.nodes_eq

def Kept (k : String) : Prop := k ∈ app.before.nodes.keys ∧ k ∉ app.changes.deletedNodeIds

variable {k : String}

lemma kept_of_drafted (hk : k ∈ app.drafted.nodes.keys)
    (hc : k ∉ app.changes.createdNodeIds) : app.Kept k := by
  rw [Dict.mem_keys, app.patched.node k hc] at hk
  obtain ⟨node, hn⟩ := hk
  split at hn
  · cases hn
  · next hd =>
    obtain ⟨old, hold, -⟩ := Option.map_eq_some_iff.mp hn
    exact ⟨Dict.mem_keys.mpr ⟨old, hold⟩, hd⟩

lemma kept_of_updated (hk : k ∈ app.changes.updatedNodeIds) : app.Kept k :=
  app.patched.known k hk

lemma notCreated_of_kept (hk : app.Kept k) : k ∉ app.changes.createdNodeIds :=
  fun hc => hk.2 (app.patched.freshNode k hc hk.1)

lemma exists_row_of_kept (hk : app.Kept k) :
    ∃ row ∈ (deleteBy app.project (sortedSet app.changes.deletedNodeIds) db.nodes).rows,
      app.project.owns row = true ∧ row.uiId = k := by
  obtain ⟨node, hn⟩ := Dict.mem_keys.mp hk.1
  obtain ⟨row, hrow, howns, rfl, -⟩ := get?_loadRows.mp hn
  exact ⟨row, (app.mem_deleteBy howns).mpr ⟨hrow, hk.2⟩, howns, rfl⟩

lemma id_renamed_not_kept {node : GraphNodeUI} (hn : node ∈ app.renamedNodes) :
    ¬ app.Kept node.id := by
  intro hk
  obtain ⟨row, hrow, howns, hid⟩ := app.exists_row_of_kept hk
  have hu := app.nodes.unique
  rw [app.rows_nodes, pairwise_append] at hu
  refine hu.2.2 row hrow _ (mem_map_of_mem hn) ?_
  exact Prod.ext hid (app.owns_columns howns).1

lemma mem_nodeUpdates {patch : GraphNodeUIUpdate} :
    patch ∈ nodeUpdates app.changes app.positions app.updated ↔
      (∃ ui ∈ app.updated, ui.modelDump = patch) ∨
      ∃ k position, app.positions.nodes.get? k = some position ∧
        k ∉ app.changes.createdNodeIds ++ app.changes.updatedNodeIds ∧
        patch = { id := k, position := some (some position) } := by
  rw [nodeUpdates, mem_append, mem_map, mem_filter, positionOperations, mem_map]
  refine or_congr Iff.rfl ⟨?_, ?_⟩
  · rintro ⟨⟨item, hi, rfl⟩, hfresh⟩
    have hget := get?_eq_some.mpr ((perm_sortedItems _).mem_iff.mp hi)
    exact ⟨item.1, item.2, hget, of_decide_eq_true hfresh, rfl⟩
  · rintro ⟨k, position, hget, hfresh, rfl⟩
    refine ⟨⟨(k, position), ?_, rfl⟩, decide_eq_true hfresh⟩
    exact (perm_sortedItems _).mem_iff.mpr (get?_eq_some.mp hget)

lemma kept_of_patch {patch : GraphNodeUIUpdate}
    (h : patch ∈ nodeUpdates app.changes app.positions app.updated) : app.Kept patch.id := by
  obtain ⟨ui, hui, rfl⟩ | ⟨k, position, hget, hfresh, rfl⟩ := app.mem_nodeUpdates.mp h
  · exact app.kept_of_updated ((mem_uiNodes app.updated_eq).mp hui).1
  · rw [mem_append, not_or] at hfresh
    exact app.kept_of_drafted (app.moved.present k (Dict.mem_keys.mpr ⟨position, hget⟩)) hfresh.1

def patchFor (choice : String → ℕ) (row : Record NodeColumns) : Option GraphNodeUIUpdate :=
  chosen (choice row.uiId) (matching app.project.id app.project.userId
    (nodeUpdates app.changes app.positions app.updated) row)

variable {row : Record NodeColumns}

section

variable (h : app.project.owns row = true)

include h

lemma mem_matching {patch : GraphNodeUIUpdate} : patch ∈ matching app.project.id app.project.userId
        (nodeUpdates app.changes app.positions app.updated) row ↔
      patch ∈ nodeUpdates app.changes app.positions app.updated ∧ patch.id = row.uiId := by
  obtain ⟨hp, hu⟩ := app.owns_columns h
  rw [matching]
  simp [hp, hu]

lemma patchFor_none
    (hn : ∀ patch ∈ nodeUpdates app.changes app.positions app.updated, patch.id ≠ row.uiId) :
    app.patchFor choice row = none := by
  have he : matching app.project.id app.project.userId
      (nodeUpdates app.changes app.positions app.updated) row = [] :=
    eq_nil_iff_forall_not_mem.mpr fun patch hp =>
      hn patch ((app.mem_matching h).mp hp).1 ((app.mem_matching h).mp hp).2
  rw [patchFor, he]
  rfl

lemma patchFor_updated {ui : GraphNodeUI} (hui : ui ∈ app.updated) (hid : ui.id = row.uiId) :
    app.patchFor choice row = some ui.modelDump := by
  obtain ⟨hu, node, hn, hd⟩ := (mem_uiNodes app.updated_eq).mp hui
  refine chosen_eq_some ?_ fun patch hp => ?_
  · exact (app.mem_matching h).mpr ⟨app.mem_nodeUpdates.mpr (.inl ⟨ui, hui, rfl⟩), hid⟩
  · obtain ⟨hmem, hpi⟩ := (app.mem_matching h).mp hp
    obtain ⟨other, ho, rfl⟩ | ⟨k, position, -, hfresh, rfl⟩ := app.mem_nodeUpdates.mp hmem
    · -- the two dumps are of one node
      obtain ⟨-, node', hn', hd'⟩ := (mem_uiNodes app.updated_eq).mp ho
      have hids : other.id = ui.id := Eq.trans hpi hid.symm
      rw [hids] at hn' hd'
      obtain rfl : node = node' := Option.some.inj (hn.symm.trans hn')
      exact congrArg GraphNodeUI.modelDump (Option.some.inj (hd'.symm.trans hd))
    · have hk : k = ui.id := Eq.trans hpi hid.symm
      exact absurd (mem_append_right _ (hk ▸ hu)) hfresh

lemma patchFor_moved
    {position : Position} (hget : app.positions.nodes.get? row.uiId = some position)
    (hfresh : row.uiId ∉ app.changes.createdNodeIds ++ app.changes.updatedNodeIds) :
    app.patchFor choice row = some { id := row.uiId, position := some (some position) } := by
  refine chosen_eq_some ?_ fun patch hp => ?_
  · refine (app.mem_matching h).mpr ⟨app.mem_nodeUpdates.mpr (.inr ?_), rfl⟩
    exact ⟨row.uiId, position, hget, hfresh, rfl⟩
  · obtain ⟨hmem, hpi⟩ := (app.mem_matching h).mp hp
    obtain ⟨other, ho, rfl⟩ | ⟨k, position', hget', -, rfl⟩ := app.mem_nodeUpdates.mp hmem
    · have hu := ((mem_uiNodes app.updated_eq).mp ho).1
      have hid : other.id = row.uiId := hpi
      exact absurd (mem_append_right _ (hid ▸ hu)) hfresh
    · obtain rfl : k = row.uiId := hpi
      rw [Option.some.inj (hget.symm.trans hget')]

end

variable {node : NodeState}

lemma get?_savedNodes : (app.savedNodes choice).get? k = some node ↔
      ∃ row ∈ app.nodes.rows, app.project.owns row = true ∧ row.uiId = k ∧
        nodeFromRecord ((app.patchFor choice row).elim row.columns fun patch =>
          patchColumns patch row.columns) = node := by
  have hrow : ∀ row : Record NodeColumns, updateRow choice app.project.id app.project.userId
        (nodeUpdates app.changes app.positions app.updated) row =
      { row with columns := (app.patchFor choice row).elim row.columns fun patch =>
          patchColumns patch row.columns } := by
    intro row
    rw [updateRow, patchFor]
    cases chosen (choice row.uiId) (matching app.project.id app.project.userId
      (nodeUpdates app.changes app.positions app.updated) row) <;> rfl
  rw [savedNodes, get?_loadRows, updateGraphNodes, rows_update]
  simp only [if_true, mem_map, hrow]
  constructor
  · rintro ⟨_, ⟨row, hmem, rfl⟩, howns, hid, hn⟩
    exact ⟨row, hmem, howns, hid, hn⟩
  · rintro ⟨row, hmem, howns, hid, hn⟩
    exact ⟨_, ⟨row, hmem, rfl⟩, howns, hid, hn⟩

lemma drafted_of_kept {old : NodeState} (hk : app.Kept k)
    (hold : app.before.nodes.get? k = some old) :
    app.drafted.nodes.get? k = some ((updatesOf patch.updateNodes k).foldl editedNode old) := by
  rw [app.patched.node k (app.notCreated_of_kept hk), if_neg hk.2]
  exact congrArg (Option.map _) hold

lemma updatesOf_eq_nil (hk : k ∉ app.changes.updatedNodeIds) :
    updatesOf patch.updateNodes k = [] := by
  rw [app.patched.updated] at hk
  refine filter_eq_nil_iff.mpr fun update hu hid => hk ?_
  exact mem_map.mpr ⟨update, hu, of_decide_eq_true hid⟩

lemma saved_of_kept (hk : app.Kept k)
    (hu : k ∉ app.changes.updatedNodeIds) (hn : app.validated.nodes.get? k = some node) :
    (app.savedNodes choice).get? k = some node := by
  obtain ⟨row, hrow, howns, rfl⟩ := app.exists_row_of_kept hk
  have hold : app.before.nodes.get? row.uiId = some (nodeFromRecord row.columns) :=
    get?_loadRows.mpr ⟨row, ((app.mem_deleteBy howns).mp hrow).1, howns, rfl, rfl⟩
  have hfresh : row.uiId ∉ app.changes.createdNodeIds ++ app.changes.updatedNodeIds := by
    rw [mem_append, not_or]
    exact ⟨app.notCreated_of_kept hk, hu⟩
  rw [app.moved.node, app.drafted_of_kept hk hold, app.updatesOf_eq_nil hu] at hn
  refine app.get?_savedNodes.mpr ⟨row, ?_, howns, rfl, ?_⟩
  · rw [app.rows_nodes]
    exact mem_append_left _ hrow
  · cases hposition : app.positions.nodes.get? row.uiId with
    | some position =>
      rw [app.patchFor_moved howns hposition hfresh]
      rw [hposition] at hn
      exact Option.some.inj hn
    | none =>
      rw [app.patchFor_none howns]
      · rw [hposition] at hn
        exact Option.some.inj hn
      · intro patch hp hid
        obtain ⟨ui, hui, rfl⟩ | ⟨k, position, hget, -, rfl⟩ := app.mem_nodeUpdates.mp hp
        · exact hu (hid ▸ ((mem_uiNodes app.updated_eq).mp hui).1)
        · have hid : k = row.uiId := hid
          rw [hid, hposition] at hget
          cases hget

lemma saved_of_updated (hk : k ∈ app.changes.updatedNodeIds)
    (hn : app.validated.nodes.get? k = some node) :
    ∃ columns ui, app.before.nodes.get? k = some (nodeFromRecord columns) ∧
      nodeToUi k node = some ui ∧
      (app.savedNodes choice).get? k = some (nodeFromRecord (patchColumns ui.modelDump columns)) := by
  obtain ⟨row, hrow, howns, rfl⟩ := app.exists_row_of_kept (app.kept_of_updated hk)
  obtain ⟨ui, hui, hd⟩ := exists_mem_uiNodes app.updated_eq hk hn
  refine ⟨row.columns, ui, ?_, hd, ?_⟩
  · exact get?_loadRows.mpr ⟨row, ((app.mem_deleteBy howns).mp hrow).1, howns, rfl, rfl⟩
  · refine app.get?_savedNodes.mpr ⟨row, ?_, howns, rfl, ?_⟩
    · rw [app.rows_nodes]
      exact mem_append_left _ hrow
    · rw [app.patchFor_updated howns hui (nodeFromRecord_columns hd).1]
      rfl

lemma mem_renamedNodes {node : GraphNodeUI} :
    node ∈ app.renamedNodes ↔ ∃ ui ∈ app.created, ∃ id, app.permanent.get? ui.id = some id ∧
      { ui with id } = node := by
  have hmap := mapM_eq_some.mp app.renamed_eq
  have hmem : node ∈ app.renamedNodes ↔ some node ∈ app.renamedNodes.map some := by simp
  rw [hmem, ← hmap, mem_map]
  simp only [Option.map_eq_some_iff]

lemma exists_renamed {ui : GraphNodeUI} (hui : ui ∈ app.created) :
    ∃ id, app.permanent.get? ui.id = some id := by
  have hmap := mapM_eq_some.mp app.renamed_eq
  have hmem := mem_map_of_mem
    (f := fun node : GraphNodeUI => (app.permanent.get? node.id).map fun id => { node with id }) hui
  rw [hmap] at hmem
  obtain ⟨node, -, hn⟩ := mem_map.mp hmem
  obtain ⟨id, hid, -⟩ := Option.map_eq_some_iff.mp hn.symm
  exact ⟨id, hid⟩

lemma saved_of_created (hk : k ∈ app.changes.createdNodeIds)
    (hn : app.validated.nodes.get? k = some node) :
    (app.savedNodes choice).get? (renamed app.permanent k) = some node := by
  obtain ⟨ui, hui, hd⟩ := exists_mem_uiNodes app.created_eq hk hn
  obtain ⟨huiId, hc⟩ := nodeFromRecord_columns hd
  obtain ⟨id, hid⟩ := app.exists_renamed hui
  have hmem : { ui with id } ∈ app.renamedNodes := app.mem_renamedNodes.mpr ⟨ui, hui, id, hid, rfl⟩
  rw [← huiId, renamed, hid]
  have howns : app.project.owns (newRecord app.project app.project.userId id ui.columns) = true :=
    app.owns_newRecord id ui.columns
  refine app.get?_savedNodes.mpr ⟨newRecord app.project app.project.userId id ui.columns, ?_, howns,
    rfl, ?_⟩
  · rw [app.rows_nodes]
    exact mem_append_right _ (mem_map.mpr ⟨_, hmem, rfl⟩)
  · rw [app.patchFor_none howns]
    · exact hc
    · intro patch hp hpi
      have hkept := app.kept_of_patch hp
      rw [hpi] at hkept
      exact app.id_renamed_not_kept hmem hkept

lemma mem_validated_of_kept (hk : app.Kept k) : k ∈ app.validated.nodes.keys := by
  obtain ⟨old, hold⟩ := Dict.mem_keys.mp hk.1
  rw [Dict.mem_keys, app.moved.node, app.drafted_of_kept hk hold]
  exact ⟨_, rfl⟩

lemma mem_validated :
    k ∈ app.validated.nodes.keys ↔ app.Kept k ∨ k ∈ app.changes.createdNodeIds := by
  have hd : k ∈ app.validated.nodes.keys ↔ k ∈ app.drafted.nodes.keys := by
    rw [Dict.mem_keys, Dict.mem_keys, app.moved.node]
    cases app.drafted.nodes.get? k <;> simp
  constructor
  · intro hk
    by_cases hc : k ∈ app.changes.createdNodeIds
    · exact .inr hc
    · exact .inl (app.kept_of_drafted (hd.mp hk) hc)
  · rintro (hk | hk)
    · exact app.mem_validated_of_kept hk
    · exact hd.mpr (app.patched.createdNode k hk)

lemma renamed_of_kept (hk : app.Kept k) : renamed app.permanent k = k :=
  (app.permanent_eq k).mpr (app.notCreated_of_kept hk)

lemma mem_validated_of_saved (hk : k ∈ (app.savedNodes choice).keys) :
    k ∈ app.validated.nodes.keys.map (renamed app.permanent) := by
  obtain ⟨node, hn⟩ := Dict.mem_keys.mp hk
  obtain ⟨row, hrow, howns, rfl, -⟩ := app.get?_savedNodes.mp hn
  rw [app.rows_nodes, mem_append] at hrow
  refine mem_map.mpr ?_
  obtain hrow | hrow := hrow
  · obtain ⟨hmem, hkept⟩ := (app.mem_deleteBy howns).mp hrow
    have hk : app.Kept row.uiId :=
      ⟨Dict.mem_keys.mpr ⟨_, get?_loadRows.mpr ⟨row, hmem, howns, rfl, rfl⟩⟩, hkept⟩
    exact ⟨row.uiId, app.mem_validated_of_kept hk, app.renamed_of_kept hk⟩
  · obtain ⟨node, hmem, rfl⟩ := mem_map.mp hrow
    obtain ⟨ui, hui, id, hid, rfl⟩ := app.mem_renamedNodes.mp hmem
    obtain ⟨-, state, hs, -⟩ := (mem_uiNodes app.created_eq).mp hui
    refine ⟨ui.id, Dict.mem_keys.mpr ⟨state, hs⟩, ?_⟩
    rw [renamed, hid]
    rfl

lemma injective_nodes : InjectiveOn (renamed app.permanent) app.validated.nodes.keys := by
  have hids : app.renamedNodes.map GraphNodeUI.id =
      app.created.map fun ui => renamed app.permanent ui.id := by
    have hmap := congrArg (List.map (Option.map GraphNodeUI.id)) (mapM_eq_some.mp app.renamed_eq)
    rw [map_map, map_map] at hmap
    refine (map_injective_iff.mpr (Option.some_injective String)) ?_
    rw [map_map, map_map]
    refine hmap.symm.trans (map_congr_left fun ui hui => ?_)
    obtain ⟨id, hid⟩ := app.exists_renamed hui
    simp [renamed, hid]
  have hu := app.nodes.unique
  rw [app.rows_nodes, pairwise_append, pairwise_map] at hu
  have hn : ((app.created.map GraphNodeUI.id).map (renamed app.permanent)).Nodup := by
    rw [map_map]
    change (app.created.map fun ui => renamed app.permanent ui.id).Nodup
    rw [← hids, List.Nodup, pairwise_map]
    exact hu.2.1.imp fun hcla hid => hcla (Prod.ext hid rfl)
  have hc : ∀ k ∈ app.validated.nodes.keys, k ∈ app.changes.createdNodeIds →
      ∃ ui ∈ app.created, ui.id = k := by
    intro k hk hmem
    obtain ⟨node, hnode⟩ := Dict.mem_keys.mp hk
    obtain ⟨ui, hui, hd⟩ := exists_mem_uiNodes app.created_eq hmem hnode
    exact ⟨ui, hui, (nodeFromRecord_columns hd).1⟩
  have hm : ∀ a b, app.Kept a → b ∈ app.validated.nodes.keys →
      b ∈ app.changes.createdNodeIds → renamed app.permanent b ≠ a := by
    intro a b ha hb hmem heq
    obtain ⟨ui, hui, rfl⟩ := hc b hb hmem
    obtain ⟨id, hid⟩ := app.exists_renamed hui
    have hr : { ui with id } ∈ app.renamedNodes :=
      app.mem_renamedNodes.mpr ⟨ui, hui, id, hid, rfl⟩
    rw [renamed, hid, Option.getD_some] at heq
    exact app.id_renamed_not_kept hr (heq ▸ ha)
  intro a ha b hb heq
  obtain hka | hca := app.mem_validated.mp ha
  · obtain hkb | hcb := app.mem_validated.mp hb
    · rwa [app.renamed_of_kept hka, app.renamed_of_kept hkb] at heq
    · rw [app.renamed_of_kept hka] at heq
      exact absurd heq.symm (hm a b hka hb hcb)
  · obtain hkb | hcb := app.mem_validated.mp hb
    · rw [app.renamed_of_kept hkb] at heq
      exact absurd heq (hm b a hkb ha hca)
    · obtain ⟨ui, hui, rfl⟩ := hc a ha hca
      obtain ⟨ui', hui', rfl⟩ := hc b hb hcb
      exact inj_on_of_nodup_map hn (mem_map_of_mem hui) (mem_map_of_mem hui') heq

lemma mem_savedNodes :
    k ∈ (app.savedNodes choice).keys ↔ k ∈ app.validated.nodes.keys.map (renamed app.permanent) := by
  refine ⟨app.mem_validated_of_saved, fun hk => ?_⟩
  obtain ⟨id, hid, rfl⟩ := mem_map.mp hk
  obtain ⟨node, hn⟩ := Dict.mem_keys.mp hid
  refine Dict.mem_keys.mpr ?_
  obtain hkept | hc := app.mem_validated.mp hid
  · rw [app.renamed_of_kept hkept]
    by_cases hu : id ∈ app.changes.updatedNodeIds
    · obtain ⟨columns, ui, -, -, hs⟩ := app.saved_of_updated hu hn
      exact ⟨_, hs⟩
    · exact ⟨node, app.saved_of_kept hkept hu hn⟩
  · exact ⟨node, app.saved_of_created hc hn⟩

end

lemma rows_edges : app.edges.rows =
    (deleteBy app.project (sortedSet app.changes.deletedEdgeIds) db.edges).rows ++
      (materializeEdges uuids app.permanent app.newEdges).map fun edge =>
        newRecord app.project app.project.userId edge.id edge.toEdgeState :=
  rows_insertAll app.edges_eq

def KeptEdge (k : String) : Prop := k ∈ app.before.edges.keys ∧ k ∉ app.changes.deletedEdgeIds

variable {k : String}

lemma notCreated_of_keptEdge (hk : app.KeptEdge k) : k ∉ app.changes.createdEdgeIds :=
  fun hc => hk.2 (app.patched.freshEdge k hc hk.1)

lemma validated_of_keptEdge (hk : app.KeptEdge k) :
    app.validated.edges.get? k = app.before.edges.get? k := by
  rw [app.edges_validated, app.patched.edge k (app.notCreated_of_keptEdge hk), if_neg hk.2]
  rfl

lemma mem_validatedEdges :
    k ∈ app.validated.edges.keys ↔ app.KeptEdge k ∨ k ∈ app.changes.createdEdgeIds := by
  constructor
  · intro hk
    by_cases hc : k ∈ app.changes.createdEdgeIds
    · exact .inr hc
    · rw [Dict.mem_keys, app.edges_validated, app.patched.edge k hc] at hk
      obtain ⟨edge, he⟩ := hk
      split at he
      · cases he
      · next hd => exact .inl ⟨Dict.mem_keys.mpr ⟨edge, he⟩, hd⟩
  · rintro (hk | hk)
    · rw [Dict.mem_keys, app.validated_of_keptEdge hk, ← Dict.mem_keys]
      exact hk.1
    · rw [app.edges_validated]
      exact app.patched.createdEdge k hk

lemma mem_newEdges {ui : GraphEdgeUI} : ui ∈ app.newEdges ↔
      app.validated.edges.get? ui.id = some ui.toEdgeState ∧ ui.id ∈ app.changes.createdEdgeIds := by
  rw [newEdges, createdEdges, mem_map]
  constructor
  · rintro ⟨entry, hentry, rfl⟩
    obtain ⟨hmem, hc⟩ := mem_filter.mp hentry
    exact ⟨get?_eq_some.mpr hmem, of_decide_eq_true hc⟩
  · rintro ⟨hget, hc⟩
    refine ⟨(ui.id, ui.toEdgeState), mem_filter.mpr ⟨get?_eq_some.mp hget, ?_⟩, rfl⟩
    exact decide_eq_true hc

lemma nodup_newEdges : (app.newEdges.map GraphEdgeUI.id).Nodup := by
  rw [newEdges, createdEdges, map_map]
  exact List.Nodup.sublist (filter_sublist.map Prod.fst) app.validated.edges.nodup

lemma zipIdx_map_id : app.newEdges.zipIdx.map (fun entry => entry.1.id) =
    app.newEdges.map GraphEdgeUI.id := by
  change app.newEdges.zipIdx.map (GraphEdgeUI.id ∘ Prod.fst) = _
  rw [← map_map, zipIdx_map_fst]

lemma get?_permanentEdges {entry : GraphEdgeUI × ℕ} (h : entry ∈ app.newEdges.zipIdx) :
    app.permanentEdges.get? entry.1.id = some ("edge_" ++ uuids.edge entry.2) := by
  have hk : entry.1.id ∈ app.newEdges.zipIdx.map fun entry => entry.1.id :=
    mem_map_of_mem (f := fun entry : GraphEdgeUI × ℕ => entry.1.id) h
  obtain ⟨other, ho, hid, hget⟩ := get?_foldl_set_of_mem
    (g := fun entry : GraphEdgeUI × ℕ => "edge_" ++ uuids.edge entry.2) .empty hk
  have hn := app.nodup_newEdges
  rw [← zipIdx_map_id] at hn
  obtain rfl : other = entry := inj_on_of_nodup_map hn ho h hid
  exact hget

lemma renamedEdge_of_notCreated (hk : k ∉ app.changes.createdEdgeIds) :
    renamed app.permanentEdges k = k := by
  have hkeys : k ∉ app.newEdges.zipIdx.map fun entry => entry.1.id := by
    rw [zipIdx_map_id]
    intro hmem
    obtain ⟨ui, hui, rfl⟩ := mem_map.mp hmem
    exact hk (app.mem_newEdges.mp hui).2
  rw [renamed, permanentEdges, permanentEdgeIds, get?_foldl_set_of_notMem _ hkeys]
  rfl

variable {edge : EdgeState}

lemma exists_zipIdx (hk : k ∈ app.changes.createdEdgeIds)
    (he : app.validated.edges.get? k = some edge) :
    ∃ i, (({ edge with id := k } : GraphEdgeUI), i) ∈
      app.newEdges.zipIdx := by
  have hmem : ({ edge with id := k } : GraphEdgeUI) ∈ app.newEdges :=
    app.mem_newEdges.mpr ⟨he, hk⟩
  obtain ⟨i, hi⟩ := mem_iff_getElem?.mp hmem
  exact ⟨i, mem_zipIdx_iff_getElem?.mpr hi⟩

lemma get?_savedEdges : app.savedEdges.get? k = some edge ↔
      ∃ row ∈ app.edges.rows, app.project.owns row = true ∧ row.uiId = k ∧ row.columns = edge :=
  get?_loadRows

lemma exists_row_of_keptEdge (hk : app.KeptEdge k) :
    ∃ row ∈ (deleteBy app.project (sortedSet app.changes.deletedEdgeIds) db.edges).rows,
      app.project.owns row = true ∧ row.uiId = k ∧ app.before.edges.get? k = some row.columns := by
  obtain ⟨edge, he⟩ := Dict.mem_keys.mp hk.1
  obtain ⟨row, hrow, howns, rfl, rfl⟩ := get?_loadRows.mp he
  exact ⟨row, (app.mem_deleteBy howns).mpr ⟨hrow, hk.2⟩, howns, rfl, he⟩

lemma saved_of_keptEdge (hk : app.KeptEdge k)
    (he : app.validated.edges.get? k = some edge) : app.savedEdges.get? k = some edge := by
  obtain ⟨row, hrow, howns, rfl, hb⟩ := app.exists_row_of_keptEdge hk
  rw [app.validated_of_keptEdge hk, hb] at he
  refine app.get?_savedEdges.mpr ⟨row, ?_, howns, rfl, Option.some.inj he⟩
  rw [app.rows_edges]
  exact mem_append_left _ hrow

lemma saved_of_createdEdge (hk : k ∈ app.changes.createdEdgeIds)
    (he : app.validated.edges.get? k = some edge) :
    app.savedEdges.get? (renamed app.permanentEdges k) = some { edge with
      source := renamed app.permanent edge.source
      target := renamed app.permanent edge.target } := by
  obtain ⟨i, hi⟩ := app.exists_zipIdx hk he
  have hget := app.get?_permanentEdges hi
  rw [renamed, hget]
  refine app.get?_savedEdges.mpr ⟨_, ?_, app.owns_newRecord _ _, rfl, rfl⟩
  rw [app.rows_edges]
  refine mem_append_right _ (mem_map.mpr ⟨_, mem_map.mpr ⟨_, hi, rfl⟩, rfl⟩)

lemma mem_savedEdges :
    k ∈ app.savedEdges.keys ↔ k ∈ app.validated.edges.keys.map (renamed app.permanentEdges) := by
  constructor
  · intro hk
    obtain ⟨edge, he⟩ := Dict.mem_keys.mp hk
    obtain ⟨row, hrow, howns, rfl, rfl⟩ := app.get?_savedEdges.mp he
    rw [app.rows_edges, mem_append] at hrow
    refine mem_map.mpr ?_
    obtain hrow | hrow := hrow
    · obtain ⟨hmem, hd⟩ := (app.mem_deleteBy howns).mp hrow
      have hkept : app.KeptEdge row.uiId :=
        ⟨Dict.mem_keys.mpr ⟨_, get?_loadRows.mpr ⟨row, hmem, howns, rfl, rfl⟩⟩, hd⟩
      exact ⟨row.uiId, app.mem_validatedEdges.mpr (.inl hkept),
        app.renamedEdge_of_notCreated (app.notCreated_of_keptEdge hkept)⟩
    · obtain ⟨_, hmem, rfl⟩ := mem_map.mp hrow
      obtain ⟨entry, hentry, rfl⟩ := mem_map.mp hmem
      have hc := app.mem_newEdges.mp (fst_mem_of_mem_zipIdx hentry)
      refine ⟨entry.1.id, Dict.mem_keys.mpr ⟨_, hc.1⟩, ?_⟩
      rw [renamed, app.get?_permanentEdges hentry]
      rfl
  · intro hk
    obtain ⟨id, hid, rfl⟩ := mem_map.mp hk
    obtain ⟨edge, he⟩ := Dict.mem_keys.mp hid
    refine Dict.mem_keys.mpr ?_
    obtain hkept | hc := app.mem_validatedEdges.mp hid
    · rw [app.renamedEdge_of_notCreated (app.notCreated_of_keptEdge hkept)]
      exact ⟨edge, app.saved_of_keptEdge hkept he⟩
    · exact ⟨_, app.saved_of_createdEdge hc he⟩

lemma injective_edges : InjectiveOn (renamed app.permanentEdges) app.validated.edges.keys := by
  have hu := app.edges.unique
  rw [app.rows_edges, pairwise_append, pairwise_map, materializeEdges, pairwise_map] at hu
  have hc : ∀ k ∈ app.validated.edges.keys, k ∈ app.changes.createdEdgeIds →
      ∃ entry ∈ app.newEdges.zipIdx, entry.1.id = k ∧
        renamed app.permanentEdges k = "edge_" ++ uuids.edge entry.2 := by
    intro k hk hmem
    obtain ⟨edge, he⟩ := Dict.mem_keys.mp hk
    obtain ⟨i, hi⟩ := app.exists_zipIdx hmem he
    refine ⟨_, hi, rfl, ?_⟩
    rw [renamed, app.get?_permanentEdges hi]
    rfl
  have hm : ∀ a b, app.KeptEdge a → b ∈ app.validated.edges.keys →
      b ∈ app.changes.createdEdgeIds → renamed app.permanentEdges b ≠ a := by
    intro a b ha hb hmem heq
    obtain ⟨entry, hentry, -, hr⟩ := hc b hb hmem
    obtain ⟨row, hrow, howns, rfl, -⟩ := app.exists_row_of_keptEdge ha
    refine hu.2.2 row hrow _ (mem_map.mpr ⟨_, mem_map.mpr ⟨entry, hentry, rfl⟩, rfl⟩) ?_
    exact Prod.ext (heq.symm.trans hr) (app.owns_columns howns).1
  have hn : (app.newEdges.zipIdx.map fun entry =>
      "edge_" ++ uuids.edge entry.2).Nodup := by
    rw [List.Nodup, pairwise_map]
    exact hu.2.1.imp fun hcla hid => hcla (Prod.ext hid rfl)
  intro a ha b hb heq
  obtain hka | hca := app.mem_validatedEdges.mp ha
  · rw [app.renamedEdge_of_notCreated (app.notCreated_of_keptEdge hka)] at heq
    obtain hkb | hcb := app.mem_validatedEdges.mp hb
    · rwa [app.renamedEdge_of_notCreated (app.notCreated_of_keptEdge hkb)] at heq
    · exact absurd heq.symm (hm a b hka hb hcb)
  · obtain hkb | hcb := app.mem_validatedEdges.mp hb
    · rw [app.renamedEdge_of_notCreated (app.notCreated_of_keptEdge hkb)] at heq
      exact absurd heq (hm b a hkb ha hca)
    · obtain ⟨entry, hentry, rfl, hr⟩ := hc a ha hca
      obtain ⟨entry', hentry', rfl, hr'⟩ := hc b hb hcb
      rw [hr, hr'] at heq
      rw [inj_on_of_nodup_map hn hentry hentry' heq]

end Application

end Dvt.Mcp
