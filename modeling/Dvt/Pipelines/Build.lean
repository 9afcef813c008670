import Dvt.Pipelines.Closure
import Dvt.Pipelines.Wiring

/-! The pipeline of a run against that of the whole stored graph. -/

namespace Dvt.Pipelines

open Library Relation List Dict

variable {reg : Registry} {graph : Graph} {nodes : List GraphNodeRecord}
  {edges : List GraphEdgeRecord} {n m : String} {targetNodes : List String}

variable {data : NodeData}

lemma graphPipeline_get?_of_inj (hinj : ∀ r ∈ nodes, ∀ r' ∈ nodes, r.uiId = r'.uiId → r = r') :
    (graphPipeline reg nodes edges).get? n = some data ↔
      ∃ r ∈ nodes, r.uiId = n ∧ toNodeData reg edges r = data := by
  constructor
  · intro h
    by_cases hn : n ∈ nodes.map GraphNodeRecord.uiId
    · obtain ⟨r, hr, hid, hget⟩ :=
        get?_foldl_set_of_mem (g := toNodeData reg edges) Dict.empty hn
      exact ⟨r, hr, hid, Option.some.inj (hget.symm.trans h)⟩
    · cases (get?_foldl_set_of_notMem (g := toNodeData reg edges) Dict.empty hn).symm.trans h
  · rintro ⟨r, hr, rfl, rfl⟩
    have hn : r.uiId ∈ nodes.map GraphNodeRecord.uiId := mem_map_of_mem hr
    obtain ⟨r', hr', hid, hget⟩ :=
      get?_foldl_set_of_mem (g := toNodeData reg edges) Dict.empty hn
    obtain rfl := hinj r' hr' r hr hid
    exact hget

lemma graphPipeline_get? (hsub : nodes ⊆ graph.nodes) :
    (graphPipeline reg nodes edges).get? n = some data ↔
      ∃ r ∈ nodes, r.uiId = n ∧ toNodeData reg edges r = data :=
  graphPipeline_get?_of_inj fun _ hr _ hr' =>
    inj_on_of_nodup_map graph.nodup (hsub hr) (hsub hr')

lemma toNodeData_links (hsub : nodes ⊆ graph.nodes) {r : GraphNodeRecord} (hr : r ∈ nodes)
    (h : m ∈ linkedNodeIds (toNodeData reg edges r).inputs) :
    ∃ e ∈ edges, e.target = r.uiId ∧ e.source = m := by
  obtain ⟨handle, v, hv, l, hl, rfl⟩ := mem_linkedNodeIds.mp h
  have hlin : l ∈ existingLinks ((toNodeData reg edges r).inputs.get? handle) := by
    rw [hv]
    exact hl
  rw [toNodeData_get?] at hlin
  obtain hs | hedge := mem_existingLinks_foldl_attach hlin
  · rw [existingLinks_stored (graph.noLinkList r (hsub hr))] at hs
    cases hs
  · obtain ⟨e, he, hi⟩ := mem_filterMap.mp (mem_filter.mp hedge).1
    obtain ⟨he, ht⟩ := mem_filter.mp he
    obtain ⟨handles, -, hlink⟩ := Option.bind_eq_some_iff.mp hi
    split at hlink
    · obtain rfl := Option.some.inj hlink
      exact ⟨e, he, of_decide_eq_true ht, rfl⟩
    · cases hlink

variable {selected frontier : List String}

lemma mem_nextFrontier {id : String} : id ∈ nextFrontier edges selected frontier ↔
      (∃ e ∈ edges, e.target ∈ frontier ∧ e.source = id) ∧ id ∉ selected := by
  simp [nextFrontier, and_assoc]

lemma nextFrontier_decreases (edges : List GraphEdgeRecord) (selected frontier : List String) :
    (edges.filter fun e => e.source ∉ selected ++ nextFrontier edges selected frontier).length +
        min (nextFrontier edges selected frontier).length 1 ≤
      (edges.filter fun e => e.source ∉ selected).length := by
  have hspl : (edges.filter fun e => e.source ∉ selected ++ nextFrontier edges selected frontier) =
      (edges.filter fun e => e.source ∉ selected).filter
        fun e => e.source ∉ nextFrontier edges selected frontier := by
    rw [filter_filter]
    refine filter_congr fun e _ => ?_
    simp [Bool.and_comm]
  rw [hspl]
  cases hn : nextFrontier edges selected frontier with
  | nil => simp
  | cons id rest =>
    obtain ⟨⟨e, he, _, hs⟩, hnot⟩ := mem_nextFrontier.mp (hn ▸ mem_cons_self)
    have hlt : ((edges.filter fun e => e.source ∉ selected).filter
        fun e => e.source ∉ id :: rest).length <
          (edges.filter fun e => e.source ∉ selected).length := by
      refine length_filter_lt_length_iff_exists.mpr ⟨e, ?_, ?_⟩
      · simp [he, hs, hnot]
      · simp [hs]
    omega

lemma selectUpstream_closed {fuel : ℕ}
    (hfuel : (edges.filter fun e => e.source ∉ selected).length + min frontier.length 1 ≤ fuel)
    (hinv : ∀ e ∈ edges, e.target ∈ selected → e.source ∈ selected ∨ e.target ∈ frontier) :
    ∀ e ∈ edges, e.target ∈ selectUpstream edges fuel selected frontier →
      e.source ∈ selectUpstream edges fuel selected frontier := by
  induction fuel generalizing selected frontier with
  | zero =>
    have hf : frontier = [] := length_eq_zero_iff.mp (by omega)
    subst hf
    intro e he ht
    exact (hinv e he ht).resolve_right not_mem_nil
  | succ fuel ih =>
    rw [selectUpstream]
    split
    · next hf =>
      subst hf
      intro e he ht
      exact (hinv e he ht).resolve_right not_mem_nil
    · next hf =>
      refine ih ?_ ?_
      · have hpos : 0 < frontier.length := length_pos_iff.mpr hf
        have hle := nextFrontier_decreases edges selected frontier
        omega
      · intro e he ht
        rcases mem_append.mp ht with ht | ht
        · refine .inl (mem_append.mpr ?_)
          by_cases hs : e.source ∈ selected
          · exact .inl hs
          · have htar := (hinv e he ht).resolve_left hs
            exact .inr (mem_nextFrontier.mpr ⟨⟨e, he, htar, rfl⟩, hs⟩)
        · exact .inr ht

lemma selectedNodeIds_closed (targets : List String) {e : GraphEdgeRecord} (he : e ∈ edges)
    (h : e.target ∈ selectedNodeIds edges targets) : e.source ∈ selectedNodeIds edges targets := by
  refine selectUpstream_closed ?_ (fun e _ ht => .inr ht) e he h
  have hle := length_filter_le (fun e : GraphEdgeRecord => e.source ∉ targets) edges
  omega

structure Selection (graph : Graph) (nodes : List GraphNodeRecord) (edges : List GraphEdgeRecord)
    (sel : String → Prop) : Prop where
  mem_nodes : ∀ r, r ∈ nodes ↔ r ∈ graph.nodes ∧ sel r.uiId
  incoming : ∀ n, sel n →
    (edges.filter fun e => e.target = n) = graph.edges.filter fun e => e.target = n
  closed : ∀ e ∈ graph.edges, sel e.target → sel e.source

lemma getGraphBy_selection (graph : Graph) (targetNodes : List String) :
    ∃ sel, Selection graph (getGraphBy graph targetNodes).1 (getGraphBy graph targetNodes).2 sel := by
  rw [getGraphBy]
  split
  · exact ⟨fun _ => True, by simp, fun _ _ => rfl, fun _ _ _ => trivial⟩
  · have hc : ∀ e ∈ graph.edges,
        e.target ∈ selectedNodeIds graph.edges (normalizeTargetNodes targetNodes) →
          e.source ∈ selectedNodeIds graph.edges (normalizeTargetNodes targetNodes) :=
      fun e he => selectedNodeIds_closed _ he
    refine ⟨(· ∈ selectedNodeIds graph.edges (normalizeTargetNodes targetNodes)), by simp, ?_, hc⟩
    intro n hn
    rw [filter_filter]
    refine filter_congr fun e he => ?_
    by_cases ht : e.target = n
    · subst ht
      simp [hn, hc e he hn]
    · simp [ht]

variable {ids : List String}

lemma foldl_normalizeTargetNodes {acc : List String} (hno : (acc ++ ids).Nodup) (he : "" ∉ ids) :
    ids.foldl (fun ids id => if id ≠ "" ∧ id ∉ ids then ids ++ [id] else ids) acc = acc ++ ids := by
  induction ids generalizing acc with
  | nil => simp
  | cons id ids ih =>
    rw [mem_cons, not_or] at he
    have hnew : id ∉ acc := by
      intro hmem
      rw [nodup_append'] at hno
      exact hno.2.2 hmem mem_cons_self
    rw [foldl_cons, if_pos ⟨Ne.symm he.1, hnew⟩, ih (by simpa using hno) he.2,
      append_assoc, singleton_append]

lemma normalizeTargetNodes_of_nodup (hno : ids.Nodup) (he : "" ∉ ids) :
    normalizeTargetNodes ids = ids :=
  foldl_normalizeTargetNodes (nil_append ids ▸ hno) he

lemma normalizeTargetNodes_spec (targetNodes : List String) :
    (normalizeTargetNodes targetNodes).Nodup ∧ ∀ id ∈ normalizeTargetNodes targetNodes,
      id ∈ targetNodes ∧ id ≠ "" := by
  rw [normalizeTargetNodes]
  induction targetNodes using List.reverseRecOn with
  | nil => simp
  | append_singleton ids id ih =>
    rw [foldl_append, foldl_cons, foldl_nil]
    split_ifs with h
    · refine ⟨?_, fun id' hid' => ?_⟩
      · rw [nodup_append']
        refine ⟨ih.1, nodup_singleton _, fun _ hmem hid => ?_⟩
        exact h.2 (mem_singleton.mp hid ▸ hmem)
      · rcases mem_append.mp hid' with hid' | hid'
        · exact ⟨mem_append_left _ (ih.2 id' hid').1, (ih.2 id' hid').2⟩
        · rw [mem_singleton.mp hid']
          exact ⟨mem_append_right _ mem_cons_self, h.1⟩
    · exact ⟨ih.1, fun id' hid' => ⟨mem_append_left _ (ih.2 id' hid').1, (ih.2 id' hid').2⟩⟩

section

def HasOutput (reg : Registry) (edges : List GraphEdgeRecord) (targetNodes : List String)
    (node : GraphNodeRecord) : Prop :=
  node.type ≠ "widget" ∧ isOutput (normalizeTargetNodes targetNodes) edges node ∧
    reg.get node.name ≠ none

lemma resolveServiceOutputNodeId_normalize (id : String) :
    resolveServiceOutputNodeId id (normalizeTargetNodes targetNodes) =
      resolveServiceOutputNodeId id targetNodes := by
  obtain ⟨hno, hids⟩ := normalizeTargetNodes_spec targetNodes
  have he : "" ∉ normalizeTargetNodes targetNodes := fun h => (hids _ h).2 rfl
  rw [resolveServiceOutputNodeId, resolveServiceOutputNodeId,
    normalizeTargetNodes_of_nodup hno he]

lemma build_eq_none_iff : buildPipelineFromGraph reg nodes edges targetNodes = none ↔
    normalizeTargetNodes targetNodes ≠ [] ∧ ∃ node ∈ nodes, HasOutput reg edges targetNodes node ∧
      (reg.get node.name).any (fun nodeClass => !nodeClass.canBeOutputNode) = true := by
  simp only [buildPipelineFromGraph, outputNodes, Option.map_eq_none_iff]
  split_ifs with h
  · simp only [true_iff]
    refine ⟨h.1, ?_⟩
    obtain ⟨node, hn, hclass⟩ := any_eq_true.mp h.2
    obtain ⟨hmem, ho⟩ := mem_filter.mp hn
    exact ⟨node, hmem, by simpa [HasOutput] using ho, hclass⟩
  · simp only [false_iff]
    rintro ⟨ht, node, hn, ho, hclass⟩
    refine h ⟨ht, any_eq_true.mpr ⟨node, mem_filter.mpr ⟨hn, ?_⟩, hclass⟩⟩
    simpa [HasOutput] using ho

variable (hno : (nodes.map GraphNodeRecord.uiId).Nodup)

include hno

lemma serviceOutput_inj {a b : GraphNodeRecord} (ha : a ∈ nodes) (hb : b ∈ nodes)
    (houta : HasOutput reg edges targetNodes a) (houtb : HasOutput reg edges targetNodes b)
    (h : resolveServiceOutputNodeId a.uiId targetNodes =
      resolveServiceOutputNodeId b.uiId targetNodes) : a = b := by
  refine inj_on_of_nodup_map hno ha hb ?_
  rw [resolveServiceOutputNodeId, resolveServiceOutputNodeId] at h
  split_ifs at h with hone
  · -- one target only, and both nodes are it
    obtain ⟨target, ht⟩ := length_eq_one_iff.mp hone
    have hmem : ∀ node, HasOutput reg edges targetNodes node → node.uiId = target := by
      intro node hout
      have ho := hout.2.1
      rw [isOutput, ht] at ho
      exact mem_singleton.mp (of_decide_eq_true ho)
    rw [hmem a houta, hmem b houtb]
  · exact (String.append_right_inj _).mp ((String.append_left_inj _).mp h)

lemma build_get?_iff {p : Pipeline}
    (hb : buildPipelineFromGraph reg nodes edges targetNodes = some p) {k : String}
    {data : NodeData} : p.get? k = some data ↔
      (∃ node ∈ nodes, HasOutput reg edges targetNodes node ∧
        resolveServiceOutputNodeId node.uiId targetNodes = k ∧ serviceNode reg node = data) ∨
      (∀ node ∈ nodes, HasOutput reg edges targetNodes node →
        resolveServiceOutputNodeId node.uiId targetNodes ≠ k) ∧
        ∃ node ∈ nodes, node.uiId = k ∧ toNodeData reg edges node = data := by
  have hinj := inj_on_of_nodup_map hno
  obtain ⟨outputs, hout, rfl⟩ := Option.map_eq_some_iff.mp hb
  have hmem : ∀ node, node ∈ outputs ↔ node ∈ nodes ∧ HasOutput reg edges targetNodes node := by
    intro node
    simp only [outputNodes] at hout
    split_ifs at hout
    cases hout
    rw [mem_filter]
    exact and_congr_right fun _ => by simp [HasOutput]
  have hg : (graphPipeline reg nodes edges).get? k = some data ↔
      ∃ node ∈ nodes, node.uiId = k ∧ toNodeData reg edges node = data :=
    graphPipeline_get?_of_inj fun a ha b hb => hinj ha hb
  simp only [resolveServiceOutputNodeId_normalize]
  by_cases hk : k ∈ outputs.map fun node => resolveServiceOutputNodeId node.uiId targetNodes
  · obtain ⟨node, hn, hid, hget⟩ := get?_foldl_set_of_mem (g := serviceNode reg)
      (graphPipeline reg nodes edges) hk
    obtain ⟨hn, ho⟩ := (hmem node).mp hn
    rw [hget]
    constructor
    · intro h
      exact .inl ⟨node, hn, ho, hid, Option.some.inj h⟩
    · rintro (⟨node', hn', ho', hid', rfl⟩ | ⟨hnone, -⟩)
      · rw [serviceOutput_inj hno hn hn' ho ho' (hid.trans hid'.symm)]
      · exact absurd hid (hnone node hn ho)
  · rw [get?_foldl_set_of_notMem _ hk, hg]
    have hnone : ∀ node ∈ nodes, HasOutput reg edges targetNodes node →
        resolveServiceOutputNodeId node.uiId targetNodes ≠ k := by
      intro node hn ho hid
      exact hk (mem_map.mpr ⟨node, (hmem node).mpr ⟨hn, ho⟩, hid⟩)
    constructor
    · exact fun h => .inr ⟨hnone, h⟩
    · rintro (⟨node, hn, ho, hid, -⟩ | ⟨-, h⟩)
      · exact absurd hid (hnone node hn ho)
      · exact h

end

def storedPipeline (reg : Registry) (graph : Graph) : Pipeline :=
  graphPipeline reg graph.nodes graph.edges

def serviceIds (reg : Registry) (nodes : List GraphNodeRecord) (edges : List GraphEdgeRecord)
    (targetNodes : List String) : List String :=
  ((outputNodes reg nodes edges (normalizeTargetNodes targetNodes)).getD []).map fun node =>
    resolveServiceOutputNodeId node.uiId (normalizeTargetNodes targetNodes)

def Reserved (reg : Registry) (graph : Graph) (targetNodes : List String) : Prop :=
  ∀ id ∈ serviceIds reg (getGraphBy graph targetNodes).1 (getGraphBy graph targetNodes).2 targetNodes,
    id ∉ graph.edges.map GraphEdgeRecord.source

instance (reg : Registry) (graph : Graph) (targetNodes : List String) :
    Decidable (Reserved reg graph targetNodes) :=
  inferInstanceAs (Decidable (∀ _ ∈ _, _ ∉ _))

variable {sel : String → Prop} {p : Pipeline}

lemma Selection.get? (hs : Selection graph nodes edges sel) (hn : sel n) :
    (graphPipeline reg nodes edges).get? n = (storedPipeline reg graph).get? n := by
  have hsub : nodes ⊆ graph.nodes := fun r hr => ((hs.mem_nodes r).mp hr).1
  have hdata : ∀ r : GraphNodeRecord, r.uiId = n →
      toNodeData reg edges r = toNodeData reg graph.edges r := by
    intro r hr
    simp only [toNodeData, hr, hs.incoming n hn]
  refine Option.ext fun data => ?_
  rw [storedPipeline, graphPipeline_get? hsub, graphPipeline_get? (List.Subset.refl _)]
  constructor
  · rintro ⟨r, hr, hid, rfl⟩
    exact ⟨r, hsub hr, hid, (hdata r hid).symm⟩
  · rintro ⟨r, hr, hid, rfl⟩
    exact ⟨r, (hs.mem_nodes r).mpr ⟨hr, hid ▸ hn⟩, hid, hdata r hid⟩

lemma build_get? (hb : buildPipelineFromGraph reg nodes edges targetNodes = some p) :
    (n ∉ serviceIds reg nodes edges targetNodes →
        p.get? n = (graphPipeline reg nodes edges).get? n) ∧
      (n ∈ serviceIds reg nodes edges targetNodes →
        ∃ data, p.get? n = some data ∧ data.name = "ServiceOutputNode") := by
  obtain ⟨outputs, ho, rfl⟩ := Option.map_eq_some_iff.mp hb
  simp only [serviceIds, ho]
  constructor
  · intro hn
    exact get?_foldl_set_of_notMem _ hn
  · intro hn
    obtain ⟨r, _, _, hget⟩ := get?_foldl_set_of_mem (g := serviceNode reg)
      (graphPipeline reg nodes edges) hn
    exact ⟨_, hget, rfl⟩

lemma Selection.link (hs : Selection graph nodes edges sel)
    (hb : buildPipelineFromGraph reg nodes edges targetNodes = some p) (hn : sel n)
    (hser : n ∉ serviceIds reg nodes edges targetNodes) (hm : m ∈ upstreamOf p n) :
    sel m ∧ m ∈ graph.edges.map GraphEdgeRecord.source := by
  obtain ⟨data, hget, hl⟩ := mem_upstreamOf.mp hm
  have hsub : nodes ⊆ graph.nodes := fun r hr => ((hs.mem_nodes r).mp hr).1
  rw [(build_get? hb).1 hser, graphPipeline_get? hsub] at hget
  obtain ⟨r, hr, rfl, rfl⟩ := hget
  obtain ⟨e, he, ht, rfl⟩ := toNodeData_links hsub hr hl
  have hin : e ∈ graph.edges.filter fun e => e.target = r.uiId := by
    rw [← hs.incoming r.uiId hn]
    exact mem_filter.mpr ⟨he, by simpa using ht⟩
  have hedge := (mem_filter.mp hin).1
  exact ⟨hs.closed e hedge (ht ▸ hn), mem_map_of_mem hedge⟩

theorem build_sameClosure (hs : Selection graph nodes edges sel)
    (hb : buildPipelineFromGraph reg nodes edges targetNodes = some p)
    (hres : ∀ id ∈ serviceIds reg nodes edges targetNodes,
      id ∉ graph.edges.map GraphEdgeRecord.source)
    (hn : n ∈ p.keys) (hserv : n ∉ serviceIds reg nodes edges targetNodes) :
    SameClosure p (storedPipeline reg graph) n := by
  have hget : ∀ m, sel m → m ∉ serviceIds reg nodes edges targetNodes →
      p.get? m = (storedPipeline reg graph).get? m := fun m hm hser =>
    ((build_get? hb).1 hser).trans (hs.get? hm)
  have hseln : sel n := by
    obtain ⟨data, hdata⟩ := Dict.mem_keys.mp hn
    rw [(build_get? hb).1 hserv, graphPipeline_get? fun r hr => ((hs.mem_nodes r).mp hr).1] at hdata
    obtain ⟨r, hr, rfl, _⟩ := hdata
    exact ((hs.mem_nodes r).mp hr).2
  have hup : ∀ m, Upstream p m n → sel m ∧ m ∉ serviceIds reg nodes edges targetNodes := by
    intro m hm
    induction hm using ReflTransGen.head_induction_on with
    | refl => exact ⟨hseln, hserv⟩
    | head hf _ ih =>
      obtain ⟨hsel, hsou⟩ := hs.link hb ih.1 ih.2 hf.2
      exact ⟨hsel, fun hser => hres _ hser hsou⟩
  refine sameClosure_of_local hn fun m hm => ⟨?_, fun k hk hkey => ?_⟩
  · have he := hget m (hup m hm).1 (hup m hm).2
    refine ⟨by simp only [Dict.mem_keys, he], fun a ha b hb => ?_⟩
    cases ha.symm.trans (he.trans hb)
    exact ⟨rfl, fun _ _ => rfl⟩
  · obtain ⟨hsel, hsou⟩ := hs.link hb (hup m hm).1 (hup m hm).2 hk
    rw [Dict.mem_keys, hget k hsel fun hser => hres k hser hsou]
    exact Dict.mem_keys.mp hkey

end Dvt.Pipelines
