import Dvt.Mcp.Stored

/-! What is stored after a patch, against the validated graph. -/

namespace Dvt.Mcp

open Library List Dict

section

/-- The statement can write what the updates make of the node: they keep its last input, and set no
text that stands for a value that is not given. -/
structure Expressible (old : NodeState) (updates : List UpdateNodeSchema) : Prop where
  comment : lastSet UpdateNodeSchema.comment updates = some (some unset) → old.comment = some unset
  subgraphId : lastSet UpdateNodeSchema.subgraphId updates = some (some unset) →
    old.subgraphId = some unset
  inputs : old.inputs.entries ≠ [] →
    ∃ name, (lastSet (inputEdit name) updates).getD (old.inputs.get? name).isSome = true

def EdgesResolved (before : GraphState) (patch : GraphPatchSchema) : Prop :=
  ∀ id edge, before.edges.get? id = some edge → id ∉ patch.deleteConnectionIds →
    edge.source ∉ patch.deleteNodeIds → edge.target ∉ patch.deleteNodeIds →
    edge.source ∉ temporaryNodeIds before patch ∧ edge.target ∉ temporaryNodeIds before patch

def PatchExpressible (before : GraphState) (patch : GraphPatchSchema) : Prop :=
  EdgesResolved before patch ∧ ∀ update ∈ patch.updateNodes, ∀ old,
    before.nodes.get? update.id = some old → Expressible old (updatesOf patch.updateNodes update.id)

lemma getD_imp_iff {value : Option (Option String)} {old : Option String} :
    (value.getD old = some unset → old = some unset) ↔
      (value = some (some unset) → old = some unset) := by
  cases value with
  | none | some value => simp

lemma expressible_iff {old : NodeState} {updates : List UpdateNodeSchema}
    (h : InputsAccepted old updates) :
    Expressible old updates ↔
      ((updates.foldl editedNode old).comment = some unset → old.comment = some unset) ∧
      ((updates.foldl editedNode old).subgraphId = some unset → old.subgraphId = some unset) ∧
      ((updates.foldl editedNode old).inputs.entries = [] → old.inputs.entries = []) := by
  have hc := foldl_editedNode (g := NodeState.comment) (fun _ _ _ => rfl) h
  have hs := foldl_editedNode (g := NodeState.subgraphId) (fun _ _ _ => rfl) h
  have hi : ∀ name, ((updates.foldl editedNode old).inputs.get? name).isSome =
      (lastSet (inputEdit name) updates).getD (old.inputs.get? name).isSome :=
    fun name => foldl_editedNode (g := fun node => (node.inputs.get? name).isSome)
      (isSome_editedNode name) h
  have hemp : (updates.foldl editedNode old).inputs.entries = [] ↔
      ∀ name, (lastSet (inputEdit name) updates).getD (old.inputs.get? name).isSome = false := by
    rw [entries_eq_nil_iff]
    exact forall_congr' fun name => by rw [hi name]
  rw [hc, hs, getD_imp_iff, getD_imp_iff, hemp]
  constructor
  · intro he
    refine ⟨he.comment, he.subgraphId, fun hn => ?_⟩
    by_contra hne
    obtain ⟨name, hname⟩ := he.inputs hne
    rw [hn name] at hname
    cases hname
  · rintro ⟨hc, hs, hi⟩
    refine ⟨hc, hs, fun hne => ?_⟩
    by_contra hn
    refine hne (hi fun name => ?_)
    exact Bool.eq_false_iff.mpr fun hname => hn ⟨name, hname⟩

namespace Application

variable {service : Service} {uuids : Uuids} {db : Database} {patch : GraphPatchSchema}
  (app : Application service uuids db patch) {choice : String → ℕ}

lemma sameNode_iff {k : String} {old node : NodeState} (hk : k ∈ app.changes.updatedNodeIds)
    (hold : app.before.nodes.get? k = some old) (hn : app.validated.nodes.get? k = some node) :
    (∃ stored, (app.savedNodes choice).get? k = some stored ∧ SameNode stored node) ↔
      Expressible old (updatesOf patch.updateNodes k) := by
  have hkept := app.kept_of_updated hk
  obtain ⟨columns, ui, hb, hdump, hs⟩ := app.saved_of_updated hk hn
  obtain rfl : old = nodeFromRecord columns := Option.some.inj (hold.symm.trans hb)
  have ha := app.patched.accepted k _ hkept.2 hold
  have hd := app.drafted_of_kept hkept hold
  -- the layout changes the position only
  have hm := app.moved.node k
  rw [hd, hn] at hm
  have hf : node.comment = ((updatesOf patch.updateNodes k).foldl
        editedNode (nodeFromRecord columns)).comment ∧
      node.subgraphId = ((updatesOf patch.updateNodes k).foldl
        editedNode (nodeFromRecord columns)).subgraphId ∧
      node.inputs = ((updatesOf patch.updateNodes k).foldl
        editedNode (nodeFromRecord columns)).inputs ∧
      node.storeEnabled = ((updatesOf patch.updateNodes k).foldl
        editedNode (nodeFromRecord columns)).storeEnabled := by
    rw [Option.some.inj hm]
    cases app.positions.nodes.get? k <;> exact ⟨rfl, rfl, rfl, rfl⟩
  obtain ⟨hc, hsub, hi, hstore⟩ := hf
  have hstore' : node.storeEnabled = none → columns.storeEnabled = none := by
    intro hnone
    rw [hstore] at hnone
    exact storeEnabled_foldl hnone
  have hsame := sameNode_patchColumns_iff hdump hstore'
  rw [expressible_iff ha, ← hc, ← hsub, ← hi]
  refine Iff.trans ⟨?_, fun h => ⟨_, hs, h⟩⟩ hsame
  rintro ⟨stored, hsto, hsn⟩
  rwa [← Option.some.inj (hs.symm.trans hsto)] at hsn

lemma edges_iff : (∀ id edge, app.validated.edges.get? id = some edge →
      app.savedEdges.get? (renamed app.permanentEdges id) = some { edge with
        source := renamed app.permanent edge.source
        target := renamed app.permanent edge.target }) ↔ EdgesResolved app.before patch := by
  have hd : ∀ id edge, app.before.edges.get? id = some edge →
      (id ∉ app.changes.deletedEdgeIds ↔ id ∉ patch.deleteConnectionIds ∧
        edge.source ∉ patch.deleteNodeIds ∧ edge.target ∉ patch.deleteNodeIds) := by
    intro id edge he
    rw [app.patched.deletedEdge, app.deleted_ids, not_or]
    refine and_congr Iff.rfl ⟨fun h => ?_, ?_⟩
    · rw [← not_or]
      exact fun hends => h ⟨edge, he, hends⟩
    · rintro ⟨hs, ht⟩ ⟨other, ho, hends⟩
      obtain rfl : edge = other := Option.some.inj (he.symm.trans ho)
      exact hends.elim hs ht
  have hc : app.changes.createdNodeIds = temporaryNodeIds app.before patch := app.created_ids
  constructor
  · intro h id edge he hid hs ht
    have hk : app.KeptEdge id :=
      ⟨Dict.mem_keys.mpr ⟨edge, he⟩, (hd id edge he).mpr ⟨hid, hs, ht⟩⟩
    have hv : app.validated.edges.get? id = some edge := by
      rw [app.validated_of_keptEdge hk, he]
    have hsto := h id edge hv
    rw [app.renamedEdge_of_notCreated (app.notCreated_of_keptEdge hk),
      app.saved_of_keptEdge hk hv] at hsto
    have hends := Option.some.inj hsto
    rw [← hc, ← app.permanent_eq, ← app.permanent_eq]
    exact ⟨(congrArg EdgeState.source hends).symm, (congrArg EdgeState.target hends).symm⟩
  · intro h id edge he
    obtain hk | hnew := app.mem_validatedEdges.mp (Dict.mem_keys.mpr ⟨edge, he⟩)
    · have hb : app.before.edges.get? id = some edge := by
        rw [← app.validated_of_keptEdge hk, he]
      obtain ⟨hid, hs, ht⟩ := (hd id edge hb).mp hk.2
      obtain ⟨hs', ht'⟩ := h id edge hb hid hs ht
      rw [← hc, ← app.permanent_eq] at hs' ht'
      rw [app.renamedEdge_of_notCreated (app.notCreated_of_keptEdge hk),
        app.saved_of_keptEdge hk he, hs', ht']
    · exact app.saved_of_createdEdge hnew he

lemma sameGraph_iff {saved : GraphState} (hn : saved.nodes = app.savedNodes choice)
    (he : saved.edges = app.savedEdges) :
    SameGraph (renamed app.permanent) (renamed app.permanentEdges) app.validated saved ↔
      PatchExpressible app.before patch := by
  have hupd : ∀ update ∈ patch.updateNodes, update.id ∈ app.changes.updatedNodeIds := by
    intro update hu
    rw [app.patched.updated]
    exact mem_map_of_mem hu
  constructor
  · intro h
    refine ⟨app.edges_iff.mp fun id edge hedge => he ▸ h.edges id edge hedge, ?_⟩
    intro update hu old hold
    have hk := hupd update hu
    obtain ⟨node, hnode⟩ := Dict.mem_keys.mp (app.mem_validated_of_kept (app.kept_of_updated hk))
    obtain ⟨stored, hs, hsame⟩ := h.nodes update.id node hnode
    rw [app.renamed_of_kept (app.kept_of_updated hk), hn] at hs
    exact (app.sameNode_iff hk hold hnode).mp ⟨stored, hs, hsame⟩
  · rintro ⟨hr, hexp⟩
    constructor
    case injectiveNodes => exact app.injective_nodes
    case injectiveEdges => exact app.injective_edges
    case nodeIds => exact fun k => hn ▸ app.mem_savedNodes
    case edgeIds => exact fun k => he ▸ app.mem_savedEdges
    case edges => exact fun id edge hedge => he ▸ app.edges_iff.mpr hr id edge hedge
    case nodes =>
      intro id node hnode
      rw [hn]
      have hself : SameNode node node := ⟨rfl, rfl, rfl, rfl, rfl, rfl, fun _ => rfl⟩
      obtain hkept | hc := app.mem_validated.mp (Dict.mem_keys.mpr ⟨node, hnode⟩)
      · rw [app.renamed_of_kept hkept]
        by_cases hk : id ∈ app.changes.updatedNodeIds
        · obtain ⟨old, hold⟩ := Dict.mem_keys.mp hkept.1
          refine (app.sameNode_iff hk hold hnode).mpr ?_
          rw [app.patched.updated] at hk
          obtain ⟨update, hu, rfl⟩ := mem_map.mp hk
          exact hexp update hu old hold
        · exact ⟨node, app.saved_of_kept hkept hk hnode, hself⟩
      · exact ⟨node, app.saved_of_created hc hnode, hself⟩

end Application

theorem stored_sameGraph_iff {service : Service} {choice : String → ℕ} {uuids : Uuids}
    {db : Database} {principal : Principal} {request : Request} {outcome : Outcome}
    {project : ProjectRecord}
    (hproject : getAccessibleProject db principal request.projectId = some project)
    (h : applyGraphChanges service choice uuids db principal request = .ok outcome) :
    SameGraph (renamed outcome.permanentNodes) (renamed outcome.permanentEdges) outcome.validated
      outcome.saved ↔ PatchExpressible (loadSnapshot db project) request.patch := by
  obtain ⟨app, hfound, hvalidated, hpermanent, hpermanentEdges, hnodes, hedges⟩ :=
    exists_application h
  obtain rfl : app.project = project := Option.some.inj (hfound.symm.trans hproject)
  rw [hvalidated, hpermanent, hpermanentEdges]
  exact app.sameGraph_iff hnodes hedges

def sampleService : Service where
  etag _ _ := ""
  arrange _ _ := some ⟨.empty, .empty⟩
  validate _ _ _ := []

def sampleProject : ProjectRecord := { id := "p", userId := "u", organizationId := "o" }

def sampleRow : Record NodeColumns where
  uiId := "n"
  projectId := "p"
  userId := "u"
  organizationId := "o"
  columns :=
    { type := "custom", position := ⟨0, 0⟩, name := "DataFrameToJson", displayName := "Rows"
      inputValues := some (.set .empty "orient" (.const (.str "records"))) }

def sampleDatabase : Database where
  projects := [sampleProject]
  nodes := ⟨[sampleRow], pairwise_singleton _ _⟩
  edges := .empty
  subgraphs := .empty

def sampleRequest (update : UpdateNodeSchema) : Request where
  projectId := "p"
  expectedGraphRevision := 0
  expectedGraphEtag := ""
  patch := { updateNodes := [update] }

def sampleUuids : Uuids := ⟨fun _ => "", fun _ => ""⟩

def sampleApply (update : UpdateNodeSchema) : Except Failure Outcome :=
  applyGraphChanges sampleService (fun _ => 0) sampleUuids sampleDatabase {} (sampleRequest update)

def clearInputs : UpdateNodeSchema :=
  { id := "n", inputs := some (some (.set .empty "orient" none)) }

def setComment : UpdateNodeSchema := { id := "n", comment := some (some "checked") }

lemma exists_outcome (update : UpdateNodeSchema) (h : (sampleApply update).isOk = true) :
    ∃ outcome, sampleApply update = .ok outcome := by
  cases hrun : sampleApply update with
  | ok outcome => exact ⟨outcome, rfl⟩
  | error failure => rw [hrun] at h; cases h

theorem stored_sameGraph_setComment : ∃ outcome, sampleApply setComment = .ok outcome ∧
    SameGraph (renamed outcome.permanentNodes) (renamed outcome.permanentEdges) outcome.validated
      outcome.saved := by
  obtain ⟨outcome, houtcome⟩ := exists_outcome setComment (by decide +kernel)
  refine ⟨outcome, houtcome, ?_⟩
  have hproject : getAccessibleProject sampleDatabase {} "p" = some sampleProject := rfl
  refine (stored_sameGraph_iff hproject houtcome).mpr ⟨nofun, ?_⟩
  intro update hupdate old hold
  obtain rfl := mem_singleton.mp hupdate
  obtain rfl := Option.some.inj hold
  refine ⟨by decide, by decide, fun _ => ⟨"orient", by decide⟩⟩

theorem stored_differs_clearInputs : ∃ outcome, sampleApply clearInputs = .ok outcome ∧
    ¬ SameGraph (renamed outcome.permanentNodes) (renamed outcome.permanentEdges) outcome.validated
      outcome.saved := by
  obtain ⟨outcome, houtcome⟩ := exists_outcome clearInputs (by decide +kernel)
  obtain ⟨app, hfound, hvalidated, hpermanent, hpermanentEdges, hnodes, hedges⟩ :=
    exists_application houtcome
  refine ⟨outcome, houtcome, ?_⟩
  rw [hvalidated, hpermanent, hpermanentEdges, app.sameGraph_iff hnodes hedges]
  rintro ⟨-, hexpressible⟩
  have hproject : app.project = sampleProject := (Option.some.inj hfound).symm
  have hold : app.before.nodes.get? "n" = some (nodeFromRecord sampleRow.columns) := by
    rw [Application.before, hproject]
    rfl
  obtain ⟨name, hname⟩ :=
    (hexpressible clearInputs (mem_singleton.mpr rfl) _ hold).inputs (by decide)
  -- the only input that the node had is the one that the update removes
  by_cases horient : name = "orient"
  · subst horient
    revert hname
    decide
  · have hedit : inputEdit name clearInputs = none := by
      simp [inputEdit, clearInputs, get?_set, horient]
    have hstored : (nodeFromRecord sampleRow.columns).inputs.get? name = none := by
      simp [nodeFromRecord, sampleRow, get?_set, horient]
    have hlast : lastSet (inputEdit name) [clearInputs] = none := by simp [lastSet, hedit]
    have hupdates : updatesOf [clearInputs] "n" = [clearInputs] := rfl
    replace hname : (lastSet (inputEdit name) (updatesOf [clearInputs] "n")).getD
      ((nodeFromRecord sampleRow.columns).inputs.get? name).isSome = true := hname
    rw [hupdates, hlast, hstored] at hname
    cases hname

end

end Dvt.Mcp
