import Dvt.Pipelines.Build

/-! Which restored generations belong to the graph that is being run. -/

namespace Dvt.Pipelines

open Library Relation List Dict

variable (reg : Registry)

def State.stored (σ : State) : Pipeline := storedPipeline reg σ.project.graph

def State.marked (σ : State) : List String :=
  findAllDependents (σ.stored reg) σ.project.dirtyNodeIds

def restorable (task : Task) (nodeId : String) : Bool :=
  (task.pipeline.get? nodeId).any fun nodeData =>
    (reg.get nodeData.name).any (canRestore reg task nodeId nodeData)

def Edited (old new : Graph) (removedNodeIds : List String) (n : String) : Prop :=
  n ∈ removedNodeIds ∨ ¬ SameNode (storedPipeline reg old) (storedPipeline reg new) n ∨
    ∃ m ∈ upstreamOf (storedPipeline reg new) n,
      m ∈ (storedPipeline reg old).keys ∧ m ∉ (storedPipeline reg new).keys

instance (old new : Graph) (removedNodeIds : List String) (n : String) :
    Decidable (Edited reg old new removedNodeIds n) :=
  inferInstanceAs (Decidable (_ ∨ _ ∨ _))

def Marks (σ : State) : Event → Prop
  | .edit graph nodeIds removedNodeIds => ∀ n ∈ (storedPipeline reg graph).keys,
      Edited reg σ.project.graph graph removedNodeIds n →
        n ∈ (σ.step reg (.edit graph nodeIds removedNodeIds)).project.dirtyNodeIds
  | _ => True

instance Marks.decidable (σ : State) : ∀ e, Decidable (Marks reg σ e)
  | .edit _ _ _ => inferInstanceAs (Decidable (∀ _ ∈ _, _ → _))
  | .build _ _ | .requireNode _ | .processNode _ _ | .activate _ _ | .markSuccess _ => isTrue trivial

/-- A node loses its mark only under a generation committed from the stored graph, and none is
committed from another one, neither for an unmarked node nor for a run that may still restore it. -/
def Coherent (σ : State) : Event → Prop
  | .build targetNodes _ => Reserved reg σ.project.graph targetNodes
  | .activate i n => ∀ run ∈ σ.runs[i]?, ∀ g ∈ run.generation reg n, activates σ.cache n g →
      (n ∈ (σ.stored reg).keys → n ∉ σ.marked reg →
        SameClosure (σ.stored reg) run.task.pipeline n) ∧
      ∀ other ∈ σ.runs, other.status = .preparing → restorable reg other.task n →
        SameClosure other.task.pipeline run.task.pipeline n
  | .markSuccess i => ∀ run ∈ σ.runs[i]?, run.status = .succeeded →
      run.task.graphRevision = some σ.project.graphRevision →
      ∀ n ∈ findAllDependents (σ.stored reg) run.task.changedNodeIds,
        n ∉ findAllDependents (σ.stored reg) (stillDirty σ.project run.task.changedNodeIds) →
        ∀ g ∈ σ.cache.get? n, ∃ other ∈ σ.runs,
          other.task.graphRevision = some σ.project.graphRevision ∧ g ∈ other.generation reg n
  | _ => True

instance Coherent.decidable (σ : State) : ∀ e, Decidable (Coherent reg σ e)
  | .build _ _ => inferInstanceAs (Decidable (Reserved _ _ _))
  | .activate _ _ => inferInstanceAs (Decidable (∀ _ ∈ _, ∀ _ ∈ _, _ → _ ∧ _))
  | .markSuccess _ => inferInstanceAs (Decidable (∀ _ ∈ _, _ → _ → ∀ _ ∈ _, _))
  | .edit _ _ _ | .requireNode _ | .processNode _ _ => isTrue trivial

def RestoredFresh (σ : State) : Prop :=
  ∀ run ∈ σ.runs, ∀ e ∈ run.restoredNodes, SameClosure run.task.pipeline e.2.pipeline e.1

instance (σ : State) : Decidable (RestoredFresh σ) :=
  inferInstanceAs (Decidable (∀ _ ∈ _, _))

def Follows (stored p : Pipeline) : Prop :=
  ∀ n, ∀ data ∈ p.get? n, data.name ≠ "ServiceOutputNode" → SameClosure p stored n

structure Current (σ : State) : Prop where
  cached : ∀ n, ∀ g ∈ σ.cache.get? n, n ∈ (σ.stored reg).keys → n ∉ σ.marked reg →
    SameClosure (σ.stored reg) g.pipeline n
  captured : ∀ run ∈ σ.runs, ∀ revision ∈ run.task.graphRevision,
    revision ≤ σ.project.graphRevision ∧
      (revision = σ.project.graphRevision → Follows (σ.stored reg) run.task.pipeline)
  preparing : ∀ run ∈ σ.runs, run.status = .preparing → ∀ n, ∀ g ∈ σ.cache.get? n,
    restorable reg run.task n → SameClosure run.task.pipeline g.pipeline n
  restored : RestoredFresh σ

section

variable {reg} {σ : State} {nodeIds removedNodeIds : List String}

variable {n : String}

lemma mem_marked : n ∈ σ.marked reg ↔
    ∃ d ∈ σ.project.dirtyNodeIds, d ∈ (σ.stored reg).keys ∧ Upstream (σ.stored reg) d n :=
  mem_findAllDependents

variable {graph : Graph}

lemma edit_sameClosure (hmar : Marks reg σ (.edit graph nodeIds removedNodeIds))
    (hn : n ∈ (storedPipeline reg graph).keys)
    (hu : n ∉ (σ.step reg (.edit graph nodeIds removedNodeIds)).marked reg) :
    SameClosure (storedPipeline reg graph) (σ.stored reg) n ∧ (n ∈ (σ.stored reg).keys) ∧
      n ∉ σ.marked reg := by
  have hedi : ∀ m, Upstream (storedPipeline reg graph) m n →
      ¬ Edited reg σ.project.graph graph removedNodeIds m := fun m hm he =>
    hu (mem_marked.mpr ⟨m, hmar m (hm.mem_left hn) he, hm.mem_left hn, hm⟩)
  have hs : ∀ m, Upstream (storedPipeline reg graph) m n →
      SameNode (storedPipeline reg graph) (σ.stored reg) m := fun m hm =>
    (not_not.mp fun hne => hedi m hm (.inr (.inl hne))).symm
  have hc : SameClosure (storedPipeline reg graph) (σ.stored reg) n := by
    refine sameClosure_of_local hn fun m hm => ⟨hs m hm, fun k hk hold => ?_⟩
    by_contra hnew
    exact hedi m hm (.inr (.inr ⟨k, hk, hold, hnew⟩))
  refine ⟨hc, (hs n .refl).1.mp hn, fun hold => ?_⟩
  obtain ⟨d, hd, _, hup⟩ := mem_marked.mp hold
  have hup' := hc.symm.upstream ((hs n .refl).1.mp hn) hup
  refine hu (mem_marked.mpr ⟨d, ?_, hup'.mem_left hn, hup'⟩)
  have hr : d ∉ removedNodeIds := fun hr => hedi d hup' (.inl hr)
  exact mem_sortedSet.mpr (mem_append_left _ (mem_filter.mpr ⟨hd, by simp [hr]⟩))

lemma Current.edit (h : Current reg σ) (hm : Marks reg σ (.edit graph nodeIds removedNodeIds)) :
    Current reg (σ.step reg (.edit graph nodeIds removedNodeIds)) where
  cached n g hg hn hu := by
    obtain ⟨hc, hold, hu⟩ := edit_sameClosure hm hn hu
    exact hc.trans (h.cached n g hg hold hu)
  captured run hrun revision hr := by
    have hle := (h.captured run hrun revision hr).1
    refine ⟨Nat.le_succ_of_le hle, fun he => ?_⟩
    -- An edit raises the revision past what any run has captured.
    exact absurd (he ▸ hle) (Nat.not_succ_le_self _)
  preparing := h.preparing
  restored := h.restored

lemma start_spec (task : Task) :
    (Run.start reg task).task = task ∧ (Run.start reg task).restoredNodes = [] := by
  rw [Run.start]
  split
  · exact ⟨rfl, rfl⟩
  · exact ⟨rfl, rfl⟩
  · split_ifs <;> exact ⟨rfl, rfl⟩

variable {task : Task}

lemma restorable_iff : restorable reg task n ↔
    ∃ nodeData nodeClass, task.pipeline.get? n = some nodeData ∧
      reg.get nodeData.name = some nodeClass ∧ canRestore reg task n nodeData nodeClass = true := by
  simp only [restorable, Option.any_eq_true]
  constructor
  · rintro ⟨nodeData, hdata, nodeClass, hclass, hcan⟩
    exact ⟨nodeData, nodeClass, hdata, hclass, hcan⟩
  · rintro ⟨nodeData, nodeClass, hdata, hclass, hcan⟩
    exact ⟨nodeData, hdata, nodeClass, hclass, hcan⟩

lemma name_ne_serviceOutput {nodeData : NodeData} {nodeClass : NodeClass}
    (hclass : reg.get nodeData.name = some nodeClass) (hdf : nodeClass.dfOutput = true) :
    nodeData.name ≠ "ServiceOutputNode" := by
  intro hname
  have ho := reg.serviceOutput
  rw [← hname, hclass] at ho
  simp [hdf] at ho

variable {targetNodes : List String} {order : DataFrameExecutionOrder}

lemma build_follows (hr : Reserved reg σ.project.graph targetNodes)
    (hb : buildPendingTaskFromProject reg σ.project targetNodes order = some task) :
    Follows (σ.stored reg) task.pipeline := by
  obtain ⟨sel, hsel⟩ := getGraphBy_selection σ.project.graph targetNodes
  obtain ⟨p, hp, rfl⟩ := Option.map_eq_some_iff.mp hb
  intro n data hdata hname
  refine build_sameClosure hsel hp hr (mem_keys.mpr ⟨data, hdata⟩) fun hs => ?_
  obtain ⟨service, hget, hser⟩ := (build_get? hp).2 hs
  cases hdata.symm.trans hget
  exact hname hser

lemma build_captures
    (hb : buildPendingTaskFromProject reg σ.project targetNodes order = some task) :
    (∀ d ∈ σ.project.dirtyNodeIds, d ∈ task.pipeline.keys → d ∈ task.changedNodeIds) ∧
      ∀ revision ∈ task.graphRevision, revision = σ.project.graphRevision := by
  obtain ⟨p, hp, rfl⟩ := Option.map_eq_some_iff.mp hb
  refine ⟨fun d hd hkey => ?_, fun revision hr => ?_⟩
  · exact mem_sortedSet.mpr (mem_filter.mpr ⟨hd, by simpa using hkey⟩)
  · dsimp only at hr
    split at hr
    · cases hr
    · exact (Option.some.inj hr).symm

lemma build_restorable (hr : Reserved reg σ.project.graph targetNodes)
    (hb : buildPendingTaskFromProject reg σ.project targetNodes order = some task)
    (hn : restorable reg task n) :
    SameClosure task.pipeline (σ.stored reg) n ∧ n ∈ (σ.stored reg).keys ∧ n ∉ σ.marked reg := by
  obtain ⟨nodeData, nodeClass, hdata, hclass, hcan⟩ := restorable_iff.mp hn
  simp only [canRestore, decide_eq_true_eq] at hcan
  have hkey : n ∈ task.pipeline.keys := mem_keys.mpr ⟨nodeData, hdata⟩
  have hc : SameClosure task.pipeline (σ.stored reg) n :=
    build_follows hr hb n nodeData hdata (name_ne_serviceOutput hclass hcan.2.2.2.1)
  have hs : n ∈ (σ.stored reg).keys :=
    (mem_closure.mp (hc.1 n (mem_closure.mpr ⟨hkey, .refl⟩))).1
  refine ⟨hc, hs, fun hm => ?_⟩
  obtain ⟨d, hd, _, hup⟩ := mem_marked.mp hm
  have hup' := hc.symm.upstream hs hup
  have hdkey := hup'.mem_left hkey
  exact hcan.1 (mem_findAllDependents.mpr ⟨d, (build_captures hb).1 d hd hdkey, hdkey, hup'⟩)

lemma Current.build (h : Current reg σ) (hres : Reserved reg σ.project.graph targetNodes) :
    Current reg (σ.step reg (.build targetNodes order)) := by
  have hnew : ∀ run ∈ (σ.step reg (.build targetNodes order)).runs, run ∈ σ.runs ∨ ∃ task,
      buildPendingTaskFromProject reg σ.project targetNodes order = some task ∧
        run = Run.start reg task := by
    intro run hrun
    rcases mem_append.mp hrun with hrun | hrun
    · exact .inl hrun
    · obtain ⟨task, ht, rfl⟩ := Option.map_eq_some_iff.mp (Option.mem_toList.mp hrun)
      exact .inr ⟨task, ht, rfl⟩
  refine ⟨h.cached, ?_, ?_, ?_⟩
  · intro run hrun revision hr
    rcases hnew run hrun with hrun | ⟨task, ht, rfl⟩
    · exact h.captured run hrun revision hr
    · rw [(start_spec task).1] at hr ⊢
      exact ⟨((build_captures ht).2 revision hr).le, fun _ => build_follows hres ht⟩
  · intro run hrun hst n g hg hn
    rcases hnew run hrun with hrun | ⟨task, ht, rfl⟩
    · exact h.preparing run hrun hst n g hg hn
    · rw [(start_spec task).1] at hn ⊢
      obtain ⟨hc, hs, hu⟩ := build_restorable hres ht hn
      exact hc.trans (h.cached n g hg hs hu)
  · intro run hrun e he
    rcases hnew run hrun with hrun | ⟨task, _, rfl⟩
    · exact h.restored run hrun e he
    · rw [(start_spec task).2] at he
      cases he

structure Restores (reg : Registry) (cache : Cache) (run run' : Run) : Prop where
  task : run'.task = run.task
  status : run'.status = .preparing → run.status = .preparing
  restored : ∀ e ∈ run'.restoredNodes, e ∈ run.restoredNodes ∨
    run.status = .preparing ∧ cache.get? e.1 = some e.2 ∧ restorable reg run.task e.1

lemma Restores.refl (cache : Cache) (run : Run) : Restores reg cache run run :=
  ⟨rfl, fun h => h, fun _ he => .inl he⟩

lemma Current.modify (h : Current reg σ) (i : ℕ) {f : Run → Run}
    (hf : ∀ run, Restores reg σ.cache run (f run)) :
    Current reg { σ with runs := σ.runs.modify i f } := by
  refine ⟨h.cached, ?_, ?_, ?_⟩
  · intro run hrun
    rcases mem_modify hrun with hrun | ⟨old, hold, rfl⟩
    · exact h.captured run hrun
    · rw [(hf old).task]
      exact h.captured old (mem_of_getElem? hold)
  · intro run hrun hst n g hg hn
    rcases mem_modify hrun with hrun | ⟨old, hold, rfl⟩
    · exact h.preparing run hrun hst n g hg hn
    · rw [(hf old).task] at hn ⊢
      exact h.preparing old (mem_of_getElem? hold) ((hf old).status hst) n g hg hn
  · intro run hrun e he
    rcases mem_modify hrun with hrun | ⟨old, hold, rfl⟩
    · exact h.restored run hrun e he
    · have hmem := mem_of_getElem? hold
      rw [(hf old).task]
      rcases (hf old).restored e he with he | ⟨hst, hg, hn⟩
      · exact h.restored old hmem e he
      · exact h.preparing old hmem hst e.1 e.2 hg hn

variable {run : Run} {cache : Cache}

lemma requireNode_restores (hst : run.status = .preparing) :
    Restores reg cache run (run.requireNode reg cache) := by
  have hstep := requireStep reg cache run
  generalize run.requireNode reg cache = run' at hstep
  cases hstep with
  | restore hcons hfresh hkey hplan =>
    refine ⟨rfl, fun _ => hst, fun e he => ?_⟩
    rcases mem_append.mp he with he | he
    · exact .inl he
    · obtain rfl := mem_singleton.mp he
      obtain ⟨nodeData, nodeClass, hdata, hclass, hget, hcan⟩ := restorePlan_eq_some hplan
      exact .inr ⟨hst, (Option.filter_eq_some_iff.mp hget).1,
        restorable_iff.mpr ⟨nodeData, nodeClass, hdata, hclass, hcan⟩⟩
  | _ => exact ⟨rfl, fun _ => hst, fun e he => .inl he⟩

lemma processNode_restores {outcome : NodeOutcome} :
    Restores reg cache run (run.processNode outcome) := by
  rw [Run.processNode]
  split
  · refine ⟨rfl, fun h => ?_, fun e he => .inl he⟩
    split at h <;> cases h
  · cases outcome with
    | executed | skipped | invalid => exact ⟨rfl, fun h => h, fun e he => .inl he⟩
    | failed | stopped afterNode => exact ⟨rfl, fun h => (by cases h), fun e he => .inl he⟩

variable {g : Generation}

lemma generation_spec (h : g ∈ run.generation reg n) : g.pipeline = run.task.pipeline ∧
      ∃ data ∈ run.task.pipeline.get? n, data.name ≠ "ServiceOutputNode" := by
  rw [Run.generation] at h
  split at h
  · split at h
    · cases h
    · next nodeData hdata =>
      obtain ⟨nodeClass, hclass, rfl⟩ := Option.map_eq_some_iff.mp h
      obtain ⟨hclass, hdf⟩ := Option.filter_eq_some_iff.mp hclass
      simp only [decide_eq_true_eq] at hdf
      exact ⟨rfl, nodeData, hdata, name_ne_serviceOutput hclass hdf.2⟩
  · cases h

variable {i : ℕ}

lemma mem_cache_of_activate {m : String}
    (hg : g ∈ (σ.step reg (.activate i n)).cache.get? m) : g ∈ σ.cache.get? m ∨
      m = n ∧ ∃ run ∈ σ.runs[i]?, g ∈ run.generation reg n ∧ activates σ.cache n g := by
  simp only [State.step] at hg
  cases hr : σ.runs[i]?.bind fun run => run.generation reg n with
  | none =>
    rw [hr] at hg
    exact .inl hg
  | some committed =>
    rw [hr] at hg
    simp only [Option.elim, activateIfNewer] at hg
    split at hg
    · next ha =>
      rw [get?_set] at hg
      split at hg
      · next hm =>
        obtain rfl := Option.some.inj hg
        obtain ⟨run, hrun, hgen⟩ := Option.bind_eq_some_iff.mp hr
        exact .inr ⟨hm, run, hrun, hgen, ha⟩
      · exact .inl hg
    · exact .inl hg

lemma Current.activate (h : Current reg σ)
    (hc : Coherent reg σ (.activate i n)) : Current reg (σ.step reg (.activate i n)) := by
  refine ⟨?_, h.captured, ?_, h.restored⟩
  · intro m g hg hm hu
    rcases mem_cache_of_activate hg with hg | ⟨rfl, run, hrun, hgen, ha⟩
    · exact h.cached m g hg hm hu
    · rw [(generation_spec hgen).1]
      exact (hc run hrun g hgen ha).1 hm hu
  · intro other ho hst m g hg hm
    rcases mem_cache_of_activate hg with hg | ⟨rfl, run, hrun, hgen, ha⟩
    · exact h.preparing other ho hst m g hg hm
    · rw [(generation_spec hgen).1]
      exact (hc run hrun g hgen ha).2 other ho hst hm

lemma clearedProject_spec (project : Project) (run : Run) : clearedProject project run = project ∨
    run.status = .succeeded ∧ run.task.graphRevision = some project.graphRevision ∧
      clearedProject project run = { project with
        dirtyNodeIds := sortedSet (stillDirty project run.task.changedNodeIds) } := by
  rw [clearedProject]
  split
  · next hs =>
    cases hr : run.task.graphRevision with
    | none => exact .inl rfl
    | some revision =>
      dsimp only [Option.elim, clearProjectGraphDirtyIfRevision]
      split
      · next he => exact .inr ⟨hs.1, by rw [he], rfl⟩
      · exact .inl rfl
  · exact .inl rfl

lemma Current.clear (h : Current reg σ) (hc : Coherent reg σ (.markSuccess i)) :
    Current reg { σ with project := σ.runs[i]?.elim σ.project (clearedProject σ.project) } := by
  cases hi : σ.runs[i]? with
  | none => exact h
  | some run =>
    dsimp only [Option.elim]
    rcases clearedProject_spec σ.project run with he | ⟨hst, hrev, he⟩
    · rw [he]
      exact h
    · rw [he]
      refine ⟨fun n g hg hn hu => ?_, h.captured, h.preparing, h.restored⟩
      by_cases hm : n ∈ σ.marked reg
      · obtain ⟨d, hd, hkey, hup⟩ := mem_marked.mp hm
        have hs : n ∉ findAllDependents (σ.stored reg)
            (stillDirty σ.project run.task.changedNodeIds) := by
          intro hn'
          obtain ⟨d', hd', hr⟩ := mem_findAllDependents.mp hn'
          exact hu (mem_marked.mpr ⟨d', mem_sortedSet.mpr hd', hr⟩)
        have hcha : d ∈ run.task.changedNodeIds := by
          by_contra hne
          exact hs (mem_findAllDependents.mpr ⟨d, mem_filter.mpr ⟨hd, by simp [hne]⟩, hkey, hup⟩)
        obtain ⟨other, ho, hrev', hgen⟩ := hc run hi hst hrev n
          (mem_findAllDependents.mpr ⟨d, hcha, hkey, hup⟩) hs g hg
        -- A captured revision that is still current belongs to the stored graph.
        obtain ⟨hp, data, hdata, hname⟩ := generation_spec hgen
        rw [hp]
        exact ((h.captured other ho _ hrev').2 rfl n data hdata hname).symm
      · exact h.cached n g hg hn hm

lemma Current.step (h : Current reg σ) {e : Event} (hm : Marks reg σ e) (hc : Coherent reg σ e) :
    Current reg (σ.step reg e) := by
  cases e with
  | edit graph nodeIds removedNodeIds => exact h.edit hm
  | build targetNodes order => exact h.build hc
  | requireNode i =>
    refine h.modify i fun run => ?_
    split
    · next hst => exact requireNode_restores hst
    · exact Restores.refl σ.cache run
  | processNode i outcome =>
    refine h.modify i fun run => ?_
    split
    · exact processNode_restores
    · exact Restores.refl σ.cache run
  | activate i n => exact h.activate hc
  | markSuccess i =>
    refine (h.clear hc).modify i fun run => ?_
    split
    · exact ⟨rfl, fun h => (by cases h), fun e he => .inl he⟩
    · exact Restores.refl σ.cache run

end

theorem restores_are_fresh (project : Project) (xs : List Event)
    (hmarks : Along (State.step reg) (Marks reg) ⟨project, .empty, []⟩ xs)
    (hcoherent : Along (State.step reg) (Coherent reg) ⟨project, .empty, []⟩ xs) :
    ∀ pre, pre <+: xs → RestoredFresh (run (State.step reg) ⟨project, .empty, []⟩ pre) := by
  intro pre hpre
  have hinit : Current reg ⟨project, .empty, []⟩ := by
    refine ⟨fun n g hg => ?_, ?_, ?_, ?_⟩
    · cases hg
    all_goals
      intro run hrun
      cases hrun
  have hcurrent := ((hmarks.and hcoherent).of_isPrefix hpre).invariant
    (fun _ _ ok h => Current.step h ok.1 ok.2) hinit
  exact hcurrent.restored

def sampleClass (className : String) (outputNode : Bool) : NodeClass where
  className := className
  outputNames := ["output"]
  outputNode := outputNode
  dfOutput := !outputNode
  runtimeFingerprint := className

def sampleRegistry : Registry where
  get name := some (sampleClass name (name = "ServiceOutputNode"))
  serviceOutput := by decide

def sampleNode (uiId value : String) : GraphNodeRecord where
  uiId := uiId
  type := "dataframe_output"
  name := "Node"
  inputValues := Dict.empty.set "value" (some (.const value))
  storeEnabled := true

def sampleEdge (source target : String) : GraphEdgeRecord where
  source := source
  sourceHandle := some "output-output"
  target := target
  targetHandle := some "input-input"

def sampleGraph (a b : String) : Graph where
  nodes := [sampleNode "a" a, sampleNode "b" b, sampleNode "c" ""]
  edges := [sampleEdge "a" "b", sampleEdge "a" "c"]
  nodup := by simp [sampleNode]
  noLinkList := by simp [sampleNode, Dict.values, Dict.set, Dict.assign, Dict.empty, isLinkList]

def sampleProject : Project where
  graph := sampleGraph "1" "1"
  dirtyNodeIds := ["a", "b", "c"]
  graphRevision := 1

def sampleRun (i : ℕ) : List Event :=
  List.replicate 8 (.requireNode i) ++ List.replicate 8 (.processNode i .executed) ++
    [.activate i "a", .activate i "b", .activate i "c", .markSuccess i]

def sampleHistory (targetNodes : List String) : List Event :=
  [.build ["b", "c"] ⟨1, "first"⟩] ++ sampleRun 0 ++
    [.edit (sampleGraph "2" "1") ["a"] [], .build targetNodes ⟨2, "second"⟩] ++ sampleRun 1 ++
    [.edit (sampleGraph "2" "2") ["b"] [], .build ["b", "c"] ⟨3, "third"⟩] ++ sampleRun 2

def sampleState (targetNodes : List String) : State :=
  run (State.step sampleRegistry) ⟨sampleProject, .empty, []⟩ (sampleHistory targetNodes)

theorem restores_are_fresh_sampleHistory :
    ((sampleState ["b", "c"]).runs.map fun run => run.restoredNodes.map Prod.fst) =
        [[], [], ["a", "c"]] ∧
      RestoredFresh (sampleState ["b", "c"]) :=
  ⟨by decide +kernel, restores_are_fresh sampleRegistry sampleProject (sampleHistory ["b", "c"])
    (by decide +kernel) (by decide +kernel) _ (prefix_refl _)⟩

theorem partial_run_leaves_stale :
    Along (State.step sampleRegistry) (Marks sampleRegistry) ⟨sampleProject, .empty, []⟩
        (sampleHistory ["b"]) ∧
      ¬ RestoredFresh (sampleState ["b"]) :=
  ⟨by decide +kernel, by decide +kernel⟩

end Dvt.Pipelines
