import Dvt.Projects.Copy
import Mathlib.Data.List.Forall2

/-! The ids of a copied project, and its rows by the ids they had. -/

namespace Dvt.Projects

open Library List Dict NodeRow

section

variable {ids : List String} {fresh : ℕ → String} {id id' : String}

lemma uiIdMap_get? (hno : ids.Nodup) {newId : String} :
    (uiIdMap ids fresh).get? id = some newId ↔ ∃ i, ids[i]? = some id ∧ newId = fresh i := by
  have hmem : ∀ e : String × ℕ, e ∈ ids.zipIdx ↔ ids[e.2]? = some e.1 := fun e =>
    mem_zipIdx_iff_getElem?
  constructor
  · intro h
    by_cases hid : id ∈ ids.zipIdx.map Prod.fst
    · obtain ⟨e, he, rfl, hget⟩ := get?_foldl_set_of_mem
        (g := fun e : String × ℕ => fresh e.2) Dict.empty hid
      exact ⟨e.2, (hmem e).mp he, Option.some.inj (h.symm.trans hget)⟩
    · cases h.symm.trans (get?_foldl_set_of_notMem
        (g := fun e : String × ℕ => fresh e.2) Dict.empty hid)
  · rintro ⟨i, hi, rfl⟩
    have hid : id ∈ ids.zipIdx.map Prod.fst :=
      mem_map.mpr ⟨(id, i), (hmem (id, i)).mpr hi, rfl⟩
    obtain ⟨e, he, rfl, hget⟩ := get?_foldl_set_of_mem
      (g := fun e : String × ℕ => fresh e.2) Dict.empty hid
    have hlt : e.2 < ids.length := (List.getElem?_eq_some_iff.mp ((hmem e).mp he)).1
    have hs := (List.getElem?_inj hlt hno).mp (((hmem e).mp he).trans hi.symm)
    exact hget.trans (congrArg (fun i => some (fresh i)) hs)

section

variable (hno : ids.Nodup) (hf : fresh.Injective)

include hno

lemma uiIdMap_eq_none (h : id ∉ ids) : (uiIdMap ids fresh).get? id = none := by
  refine Option.eq_none_iff_forall_ne_some.mpr fun newId hget => h ?_
  obtain ⟨i, hi, -⟩ := (uiIdMap_get? hno).mp hget
  exact mem_of_getElem? hi

lemma relink_of_getElem? {i : ℕ} (h : ids[i]? = some id) :
    relink (uiIdMap ids fresh) id = fresh i := by
  rw [relink, (uiIdMap_get? hno).mpr ⟨i, h, rfl⟩]
  rfl

lemma relink_cases (fresh : ℕ → String) (id : String) :
    (∃ i, ids[i]? = some id ∧ relink (uiIdMap ids fresh) id = fresh i) ∨
      id ∉ ids ∧ relink (uiIdMap ids fresh) id = id := by
  by_cases h : id ∈ ids
  · obtain ⟨i, hi⟩ := mem_iff_getElem?.mp h
    exact .inl ⟨i, hi, relink_of_getElem? hno hi⟩
  · rw [relink, uiIdMap_eq_none hno h]
    exact .inr ⟨h, rfl⟩

lemma map_relink : ids.zipIdx.map (fun e => fresh e.2) = ids.map (relink (uiIdMap ids fresh)) := by
  have hmap : ids.zipIdx.map (fun e => fresh e.2) =
      ids.zipIdx.map (relink (uiIdMap ids fresh) ∘ Prod.fst) :=
    map_congr_left fun e he => (relink_of_getElem? hno (mem_zipIdx_iff_getElem?.mp he)).symm
  rw [hmap, ← map_map, zipIdx_map_fst]

lemma relink_mem_iff (hid : ∀ i, id ≠ fresh i) :
    relink (uiIdMap ids fresh) id ∈ ids.map (relink (uiIdMap ids fresh)) ↔ id ∈ ids := by
  refine ⟨fun h => ?_, mem_map_of_mem⟩
  by_contra hnot
  obtain ⟨other, hother, heq⟩ := mem_map.mp h
  obtain ⟨i, hi, -⟩ | ⟨-, hsame⟩ := relink_cases hno fresh id
  · exact hnot (mem_of_getElem? hi)
  · obtain ⟨j, -, hnew⟩ | ⟨hother', -⟩ := relink_cases hno fresh other
    · exact hid j (hsame.symm.trans (heq.symm.trans hnew))
    · exact hother' hother

include hf

lemma relink_inj (hid : id ∈ ids ∨ ∀ i, id ≠ fresh i) (hid' : id' ∈ ids ∨ ∀ i, id' ≠ fresh i)
    (h : relink (uiIdMap ids fresh) id = relink (uiIdMap ids fresh) id') : id = id' := by
  rcases relink_cases hno fresh id with ⟨i, hi, hnew⟩ | ⟨hn, hnew⟩
  · rcases relink_cases hno fresh id' with ⟨j, hj, hnew'⟩ | ⟨hn', hnew'⟩
    · obtain rfl := hf (hnew.symm.trans (h.trans hnew'))
      exact Option.some.inj (hi.symm.trans hj)
    · exact absurd (hnew'.symm.trans (h.symm.trans hnew)) (hid'.resolve_left hn' i)
  · rcases relink_cases hno fresh id' with ⟨j, -, hnew'⟩ | ⟨-, hnew'⟩
    · exact absurd (hnew.symm.trans (h.trans hnew')) (hid.resolve_left hn j)
    · exact hnew.symm.trans (h.trans hnew')

end

end

section

variable {c : Copying} {row row' : NodeRow} {id id' : String}

lemma newNodeUiId_injective (c : Copying) : c.newNodeUiId.Injective := fun _ _ h =>
  c.uuids.node_injective ((String.append_right_inj _).mp h)

lemma eq_of_uiId (hrow : row ∈ c.nodes) (hrow' : row' ∈ c.nodes) (h : row.uiId = row'.uiId) :
    row = row' := inj_on_of_nodup_map c.nodup_nodes hrow hrow' h

lemma exists_newUiId (hid : id ∈ c.nodes.map uiId) : ∃ i, c.newUiId id = c.newNodeUiId i := by
  obtain ⟨i, hi⟩ := mem_iff_getElem?.mp hid
  exact ⟨i, relink_of_getElem? c.nodup_nodes hi⟩

lemma newUiId_inj (hid : id ∈ c.nodes.map uiId ∨ ∀ i, id ≠ c.newNodeUiId i)
    (hid' : id' ∈ c.nodes.map uiId ∨ ∀ i, id' ≠ c.newNodeUiId i)
    (h : c.newUiId id = c.newUiId id') : id = id' :=
  relink_inj c.nodup_nodes (newNodeUiId_injective c) hid hid' h

end

section

def Copying.copiedNode (c : Copying) (row : NodeRow) : Option (NodeRow × Option (Text × Text)) :=
  c.copyNode (c.newUiId row.uiId) row

structure Copies (c : Copying) (copied : CopiedProject) : Prop where
  nodes : Forall₂ (fun row row' => ∃ pair, c.copiedNode row =
    some (row', pair)) c.nodes copied.nodes
  edges : copied.edges = c.edges.map c.copyEdge
  subgraphs : copied.subgraphs = c.subgraphs.map (relink c.subgraphUiIdMap)
  files : copyDvtServiceFileObjects c.files (c.nodes.filterMap fun row =>
    (c.copiedNode row).bind Prod.snd) = some copied.files

variable {c : Copying} {copied : CopiedProject}

lemma copies_of_copyProject (h : c.copyProject = some copied) : Copies c copied := by
  obtain ⟨nodes, hn, h⟩ := Option.bind_eq_some_iff.mp h
  obtain ⟨files, hf, h⟩ := Option.bind_eq_some_iff.mp h
  cases h
  -- the new id of the row at a place is the one its old id is mapped to
  have hrows : c.nodes.map c.copiedNode = nodes.map some := by
    rw [← mapM_eq_some.mp hn, ← zipIdx_map_fst 0 c.nodes, map_map, zipIdx_map_fst]
    refine map_congr_left fun e he => ?_
    have hid : (c.nodes.map uiId)[e.2]? = some e.1.uiId := by
      rw [getElem?_map, mem_zipIdx_iff_getElem?.mp he, Option.map_some]
    exact congrArg (c.copyNode · e.1) (relink_of_getElem? c.nodup_nodes hid)
  refine ⟨?_, rfl, map_relink c.nodup_subgraphs, ?_⟩
  · rw [← forall₂_eq_eq_eq, forall₂_map_left_iff, forall₂_map_right_iff] at hrows
    exact forall₂_map_right_iff.mpr (hrows.imp fun row node hrow => ⟨node.2, hrow⟩)
  · have hpairs := congrArg (filterMap fun node => node.bind Prod.snd) hrows
    rw [filterMap_map, filterMap_map] at hpairs
    exact hpairs ▸ hf

variable (hcopies : Copies c copied)

include hcopies

lemma Copies.exists_copy {row : NodeRow} (hrow : row ∈ c.nodes) : ∃ row' pair,
    (row, row') ∈ c.nodes.zip copied.nodes ∧ c.copiedNode row = some (row', pair) := by
  obtain ⟨i, hi, rfl⟩ := mem_iff_getElem.mp hrow
  have hlt : i < copied.nodes.length := hcopies.nodes.length_eq ▸ hi
  obtain ⟨pair, hcopy⟩ := hcopies.nodes.get hi hlt
  exact ⟨_, pair, mem_iff_getElem.mpr ⟨i, by simp [hi, hlt], getElem_zip⟩, hcopy⟩

lemma Copies.of_mem_zip {rows : NodeRow × NodeRow} (h : rows ∈ c.nodes.zip copied.nodes) :
    rows.1 ∈ c.nodes ∧ ∃ pair, c.copiedNode rows.1 = some (rows.2, pair) :=
  ⟨(List.of_mem_zip h).1, (forall₂_iff_zip.mp hcopies.nodes).2 h⟩

lemma Copies.exists_original {row' : NodeRow} (hrow' : row' ∈ copied.nodes) :
    ∃ row ∈ c.nodes, ∃ pair, c.copiedNode row = some (row', pair) := by
  obtain ⟨i, hi, rfl⟩ := mem_iff_getElem.mp hrow'
  have hlt : i < c.nodes.length := hcopies.nodes.length_eq ▸ hi
  exact ⟨_, getElem_mem hlt, hcopies.nodes.get hlt hi⟩

end

end Dvt.Projects
