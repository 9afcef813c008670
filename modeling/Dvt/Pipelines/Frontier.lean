import Dvt.Pipelines.Processor
import Dvt.Pipelines.Sorting

/-! The plan of a run: which nodes are executed, and which are restored. -/

namespace Dvt.Pipelines

open Library Relation List Dict

variable {reg : Registry} {task : Task} {order : List String} {run : Run}
variable {m : String} {caches : ℕ → Cache} {P : Run → Prop}

section

variable (reg : Registry)

def Run.prepare (caches : ℕ → Cache) : ℕ → Run → Run
  | 0, run => run
  | fuel + 1, run =>
    if run.status = .preparing then Run.prepare caches fuel (run.requireNode reg (caches fuel))
    else run

def prepareCacheFrontier (caches : ℕ → Cache) (task : Task) : Run :=
  let run := Run.start reg task
  run.prepare reg caches
    (pending (upstreamOf task.pipeline) task.pipeline.keys run.requiring run.visitedNodeIds + 1)

end

def Run.restoredIds (run : Run) : List String := run.restoredNodes.map Prod.fst

def Through (p : Pipeline) (planned : List String) (n m : String) : Prop :=
  n ∈ planned ∧ Feeds p m n

def RequiresFresh (reg : Registry) (p : Pipeline) (n : String) : Prop :=
  ∃ data ∈ p.get? n, (reg.get data.name).any NodeClass.requiresFreshExecution = true

structure ClosedPlan (reg : Registry) (task : Task) (order planned restored : List String) : Prop where
  sublist : planned.Sublist order
  nodup : planned.Nodup
  disjoint : ∀ n ∈ planned, n ∉ restored
  targets : ∀ t ∈ executionTargetIds task order, t ∈ planned ∨ t ∈ restored
  inputs : ∀ n ∈ planned, ∀ m, Feeds task.pipeline m n → m ∈ planned ∨ m ∈ restored
  reached : ∀ n ∈ restored, ∃ t ∈ executionTargetIds task order,
    ReflTransGen (Through task.pipeline planned) t n
  unchanged : ∀ n ∈ restored, ∀ s ∈ task.changedNodeIds, s ∈ task.pipeline.keys →
    ¬ Upstream task.pipeline s n
  stored : ∀ n ∈ restored, ∀ s, RequiresFresh reg task.pipeline s → ¬ Upstream task.pipeline s n

section

variable {cache : Cache} {n : String} {p : Pipeline}

lemma mem_freshPaths : n ∈ freshPaths reg p ↔ ∃ s, RequiresFresh reg p s ∧ Upstream p s n := by
  simp only [freshPaths, mem_findAllDependents, mem_map, mem_filter]
  constructor
  · rintro ⟨s, ⟨e, ⟨he, hfresh⟩, rfl⟩, _, hup⟩
    exact ⟨e.1, ⟨e.2, get?_eq_some.mpr he, hfresh⟩, hup⟩
  · rintro ⟨s, ⟨data, hdata, hfresh⟩, hup⟩
    exact ⟨s, ⟨(s, data), ⟨get?_eq_some.mp hdata, hfresh⟩, rfl⟩,
      mem_keys.mpr ⟨data, hdata⟩, hup⟩

lemma restorePlan_spec {generation : Generation}
    (h : restorePlan reg cache task n = some generation) :
    n ∉ affectedNodeIds task ∧ n ∉ freshPaths reg task.pipeline := by
  obtain ⟨nodeData, nodeClass, -, -, -, hcan⟩ := restorePlan_eq_some h
  simp only [canRestore, decide_eq_true_eq] at hcan
  exact ⟨hcan.1, hcan.2.1⟩

lemma mem_gatherParentIds {nodeData : NodeData} (hdata : p.get? n = some nodeData) :
    m ∈ gatherParentIds nodeData.inputs ↔ m ∈ upstreamOf p n := by
  rw [gatherParentIds, mem_dedup, mem_upstreamOf]
  constructor
  · intro hm
    exact ⟨nodeData, hdata, hm⟩
  · rintro ⟨data, hget, hm⟩
    cases hdata.symm.trans hget
    exact hm

def Run.Owes (run : Run) (n : String) : Prop := n ∈ run.visitedNodeIds ∨ n ∈ run.requiring

structure Preparing (reg : Registry) (task : Task) (order : List String) (run : Run) : Prop where
  sameTask : run.task = task
  sameOrder : run.executionOrder = order
  visited : ∀ n, n ∈ run.visitedNodeIds ↔ n ∈ run.requiredNodeIds ∨ n ∈ run.restoredIds
  inside : ∀ n ∈ run.visitedNodeIds, n ∈ task.pipeline.keys
  disjoint : ∀ n ∈ run.requiredNodeIds, n ∉ run.restoredIds
  targets : ∀ t ∈ executionTargetIds task order, run.Owes t
  inputs : ∀ n ∈ run.requiredNodeIds, ∀ m, Feeds task.pipeline m n → run.Owes m
  reached : ∀ n ∈ task.pipeline.keys, run.Owes n → ∃ t ∈ executionTargetIds task order,
    ReflTransGen (Through task.pipeline run.requiredNodeIds) t n
  unaffected : ∀ n ∈ run.restoredIds, n ∉ affectedNodeIds task ∧ n ∉ freshPaths reg task.pipeline

lemma executionTargetIds_subset (task : Task) (order : List String) :
    executionTargetIds task order ⊆ order := by
  intro t ht
  rw [executionTargetIds] at ht
  split at ht
  · simpa using (mem_filter.mp ht).2
  · exact (mem_filter.mp ht).1

variable {run' : Run}

section

variable (hs : RequireStep reg cache run run')

include hs

lemma Run.owes_of_step (hn : n ∈ run.task.pipeline.keys) (ho : run.Owes n) : run'.Owes n := by
  cases hs with
  | plan hnil | unknown hdata hclass => exact ho
  | skip hcons hskip =>
    rw [Run.Owes, hcons, mem_cons] at ho
    rcases ho with hv | rfl | hr
    · exact .inl hv
    · exact .inl (hskip.resolve_right (not_not.mpr hn))
    · exact .inr hr
  | restore hcons hfresh hkey hplan =>
    rw [Run.Owes, hcons, mem_cons] at ho
    rcases ho with hv | rfl | hr
    · exact .inl (mem_cons_of_mem _ hv)
    · exact .inl mem_cons_self
    · exact .inr hr
  | require hcons hfresh hdata hplan =>
    rw [Run.Owes, hcons, mem_cons] at ho
    rcases ho with hv | rfl | hr
    · exact .inl (mem_cons_of_mem _ hv)
    · exact .inl mem_cons_self
    · exact .inr (mem_append_right _ hr)

lemma Run.owes_before (ho : run'.Owes n) : run.Owes n ∨
      ∃ m ∈ run'.requiredNodeIds, run.Owes m ∧ n ∈ upstreamOf run.task.pipeline m := by
  cases hs with
  | plan hnil | unknown hdata hclass => exact .inl ho
  | skip hcons hskip =>
    refine .inl (ho.imp_right fun hr => ?_)
    rw [hcons]
    exact mem_cons_of_mem _ hr
  | restore hcons hfresh hkey hplan =>
    left
    rw [Run.Owes, hcons]
    rcases ho with hv | hr
    · rcases mem_cons.mp hv with rfl | hv
      · exact .inr mem_cons_self
      · exact .inl hv
    · exact .inr (mem_cons_of_mem _ hr)
  | @require nodeId rest nodeData hcons hfresh hdata hplan =>
    have howes : run.Owes nodeId := .inr (hcons ▸ mem_cons_self)
    rcases ho with hv | hr
    · rcases mem_cons.mp hv with rfl | hv
      · exact .inl howes
      · exact .inl (.inl hv)
    · rcases mem_append.mp hr with hp | hr
      · exact .inr ⟨nodeId, mem_cons_self, howes, (mem_gatherParentIds hdata).mp hp⟩
      · exact .inl (.inr (hcons ▸ mem_cons_of_mem _ hr))

lemma RequireStep.required_subset : run.requiredNodeIds ⊆ run'.requiredNodeIds := by
  cases hs with
  | require hcons hfresh hdata hplan => exact subset_cons_self _ _
  | _ => exact List.Subset.refl _

end

lemma Preparing.step (hk : order ⊆ task.pipeline.keys)
    (h : Preparing reg task order run) (hs : RequireStep reg cache run run') :
    Preparing reg task order run' := by
  obtain ⟨rfl, rfl⟩ : run.task = task ∧ run.executionOrder = order := ⟨h.sameTask, h.sameOrder⟩
  have htar : ∀ t ∈ executionTargetIds run.task run.executionOrder, run'.Owes t := fun t ht =>
    Run.owes_of_step hs (hk (executionTargetIds_subset _ _ ht)) (h.targets t ht)
  have hi : ∀ n ∈ run.requiredNodeIds, ∀ m, Feeds run.task.pipeline m n → run'.Owes m :=
    fun n hn m hm => Run.owes_of_step hs hm.1 (h.inputs n hn m hm)
  have hrea : ∀ n ∈ run.task.pipeline.keys, run'.Owes n →
      ∃ t ∈ executionTargetIds run.task run.executionOrder,
        ReflTransGen (Through run.task.pipeline run'.requiredNodeIds) t n := by
    have hold : ∀ n ∈ run.task.pipeline.keys, run.Owes n →
        ∃ t ∈ executionTargetIds run.task run.executionOrder,
          ReflTransGen (Through run.task.pipeline run'.requiredNodeIds) t n := by
      intro n hkey hn
      obtain ⟨t, ht, hp⟩ := h.reached n hkey hn
      exact ⟨t, ht, ReflTransGen.mono (fun a b hab => ⟨hs.required_subset hab.1, hab.2⟩) _ _ hp⟩
    intro n hkey hn
    rcases Run.owes_before hs hn with hn | ⟨m, hm, hmo, hup⟩
    · exact hold n hkey hn
    · have hf : Feeds run.task.pipeline n m := ⟨hkey, hup⟩
      obtain ⟨t, ht, hp⟩ := hold m hf.mem_keys hmo
      exact ⟨t, ht, hp.tail ⟨hm, hf⟩⟩
  cases hs with
  | plan | unknown | skip =>
    exact ⟨rfl, rfl, h.visited, h.inside, h.disjoint, htar, hi, hrea, h.unaffected⟩
  | @restore nodeId rest generation hcons hfresh hkey hplan =>
    have hr : ∀ n, n ∈ (run.restoredNodes ++ [(nodeId, generation)]).map Prod.fst ↔
        n = nodeId ∨ n ∈ run.restoredIds := by
      intro n
      simp [Run.restoredIds, or_comm]
    refine ⟨rfl, rfl, ?_, ?_, ?_, htar, hi, hrea, ?_⟩
    · intro n
      rw [Run.restoredIds, hr, mem_cons, h.visited n]
      exact or_left_comm
    · rintro n (_ | ⟨_, hn⟩)
      · exact hkey
      · exact h.inside n hn
    · intro n hn hmem
      rcases (hr n).mp hmem with rfl | hmem
      · exact hfresh ((h.visited n).mpr (.inl hn))
      · exact h.disjoint n hn hmem
    · intro n hmem
      rcases (hr n).mp hmem with rfl | hmem
      · exact restorePlan_spec hplan
      · exact h.unaffected n hmem
  | @require nodeId rest nodeData hcons hfresh hdata hplan =>
    refine ⟨rfl, rfl, ?_, ?_, ?_, htar, ?_, hrea, h.unaffected⟩
    · intro n
      rw [mem_cons, mem_cons, h.visited n]
      exact or_assoc.symm
    · rintro n (_ | ⟨_, hn⟩)
      · exact mem_keys.mpr ⟨nodeData, hdata⟩
      · exact h.inside n hn
    · rintro n (_ | ⟨_, hn⟩) hmem
      · exact hfresh ((h.visited nodeId).mpr (.inr hmem))
      · exact h.disjoint n hn hmem
    · rintro n (_ | ⟨_, hn⟩) m hm
      · exact .inr (mem_append_left _ ((mem_gatherParentIds hdata).mpr hm.2))
      · exact hi n hn m hm

lemma RequireStep.pending_lt (hs : RequireStep reg cache run run')
    (hsta : run'.status = .preparing) :
    pending (upstreamOf run.task.pipeline) run.task.pipeline.keys run'.requiring run'.visitedNodeIds <
      pending (upstreamOf run.task.pipeline) run.task.pipeline.keys run.requiring
        run.visitedNodeIds := by
  have hpop : ∀ {nodeId rest}, run.requiring = nodeId :: rest →
      pending (upstreamOf run.task.pipeline) run.task.pipeline.keys rest run.visitedNodeIds <
        pending (upstreamOf run.task.pipeline) run.task.pipeline.keys run.requiring
          run.visitedNodeIds := by
    intro nodeId rest hcons
    rw [hcons, pending, pending, length_cons]
    omega
  cases hs with
  | plan hnil | unknown hdata hclass => cases hsta
  | skip hcons hskip => exact hpop hcons
  | restore hcons hfresh hkey hplan =>
    refine Nat.lt_of_le_of_lt ?_ (hpop hcons)
    exact pending_visit run.task.pipeline.nodup_keys hkey hfresh (Nat.le_add_right _ _)
  | @require nodeId rest nodeData hcons hfresh hdata hplan =>
    refine Nat.lt_of_le_of_lt ?_ (hpop hcons)
    refine pending_visit run.task.pipeline.nodup_keys (mem_keys.mpr ⟨_, hdata⟩) hfresh ?_
    have hlen : (gatherParentIds nodeData.inputs).length ≤
        (upstreamOf run.task.pipeline nodeId).length := by
      rw [upstreamOf, hdata]
      exact (dedup_sublist _).length_le
    rw [length_append]
    omega

structure Prepared (run : Run) : Prop where
  status : run.status = .processing
  requiring : run.requiring = []
  remaining : run.remaining = run.executionOrder.filter (· ∈ run.requiredNodeIds)

lemma RequireStep.prepared (hs : RequireStep reg cache run run')
    (hreg : ∀ data ∈ run.task.pipeline.values, reg.get data.name ≠ none) :
    run'.status = run.status ∨ Prepared run' := by
  cases hs with
  | plan hnil => exact .inr ⟨rfl, hnil, rfl⟩
  | unknown hdata hclass => exact absurd hclass (hreg _ (mem_values.mpr ⟨_, hdata⟩))
  | skip hcons hskip | restore hcons hfresh hkey hplan | require hcons hfresh hdata hplan =>
    exact .inl rfl

lemma prepare_prepared {fuel : ℕ} (hreg : ∀ data ∈ task.pipeline.values, reg.get data.name ≠ none)
    (ht : ∀ run, P run → run.task = task)
    (hstep : ∀ i run run', P run → RequireStep reg (caches i) run run' → P run')
    (hrun : P run) (hsta : run.status = .preparing)
    (hf : pending (upstreamOf task.pipeline) task.pipeline.keys run.requiring
      run.visitedNodeIds < fuel) :
    P (run.prepare reg caches fuel) ∧ Prepared (run.prepare reg caches fuel) := by
  induction fuel generalizing run with
  | zero => exact absurd hf (Nat.not_lt_zero _)
  | succ fuel ih =>
    rw [Run.prepare, if_pos hsta]
    have hs := requireStep reg (caches fuel) run
    have hn := hstep fuel run _ hrun hs
    rcases hs.prepared (ht run hrun ▸ hreg) with hsame | hp
    · have hlt := hs.pending_lt (hsame.trans hsta)
      rw [ht run hrun] at hlt
      exact ih hn (hsame.trans hsta) (by omega)
    · have hstop : ∀ k, (run.requireNode reg (caches fuel)).prepare reg caches k =
          run.requireNode reg (caches fuel) := by
        intro k
        cases k with
        | zero => rfl
        | succ k => rw [Run.prepare, if_neg (by rw [hp.status]; decide)]
      rw [hstop]
      exact ⟨hn, hp⟩

end

section

variable (hsort : task.sorted = .ok order)

include hsort

lemma order_subset_keys : order ⊆ task.pipeline.keys :=
  fun n hn => (((topologicalSort_spec hsort).2 n).mp hn).1

lemma order_closed {n : String} (hn : n ∈ order) (hm : Feeds task.pipeline m n) : m ∈ order := by
  obtain ⟨_, hmem⟩ := topologicalSort_spec hsort
  refine (hmem m).mpr ⟨hm.1, ((hmem n).mp hn).2.imp_right ?_⟩
  rintro ⟨t, ht, hup⟩
  exact ⟨t, ht, .head hm hup⟩

lemma Preparing.required_subset
    (h : Preparing reg task order run) : run.requiredNodeIds ⊆ order := by
  intro n hn
  have hv : n ∈ run.visitedNodeIds := (h.visited n).mpr (.inl hn)
  obtain ⟨t, ht, hp⟩ := h.reached n (h.inside n hv) (.inl hv)
  clear hn hv
  induction hp with
  | refl => exact executionTargetIds_subset _ _ ht
  | tail _ hbc ih => exact order_closed hsort ih hbc.2

lemma Preparing.closedPlan (h : Preparing reg task order run) (hend : Prepared run) :
    ClosedPlan reg task order run.remaining run.restoredIds := by
  have hp : ∀ n, n ∈ run.remaining ↔ n ∈ run.requiredNodeIds := by
    intro n
    rw [hend.remaining, h.sameOrder, mem_filter, decide_eq_true_eq]
    exact ⟨fun hn => hn.2, fun hn => ⟨h.required_subset hsort hn, hn⟩⟩
  have hset : ∀ n, run.Owes n → n ∈ run.remaining ∨ n ∈ run.restoredIds := by
    intro n hn
    rw [hp, ← h.visited]
    refine hn.resolve_right ?_
    rw [hend.requiring]
    exact not_mem_nil
  refine ⟨?_, ?_, ?_, ?_, ?_, ?_, ?_, ?_⟩
  · rw [hend.remaining, h.sameOrder]
    exact filter_sublist
  · rw [hend.remaining, h.sameOrder]
    exact (topologicalSort_spec hsort).1.filter _
  · intro n hn
    exact h.disjoint n ((hp n).mp hn)
  · intro t ht
    exact hset t (h.targets t ht)
  · intro n hn m hm
    exact hset m (h.inputs n ((hp n).mp hn) m hm)
  · intro n hn
    have hv : n ∈ run.visitedNodeIds := (h.visited n).mpr (.inr hn)
    obtain ⟨t, ht, hpath⟩ := h.reached n (h.inside n hv) (.inl hv)
    exact ⟨t, ht, ReflTransGen.mono (fun a b hab => ⟨(hp a).mpr hab.1, hab.2⟩) _ _ hpath⟩
  · intro n hn s hs hkey hup
    exact (h.unaffected n hn).1 (mem_findAllDependents.mpr ⟨s, hs, hkey, hup⟩)
  · intro n hn s hs hup
    exact (h.unaffected n hn).2 (mem_freshPaths.mpr ⟨s, hs, hup⟩)

lemma closedPlan_order : ClosedPlan reg task order order [] where
  sublist := List.Sublist.refl _
  nodup := (topologicalSort_spec hsort).1
  disjoint := fun _ _ => not_mem_nil
  targets := fun _ ht => .inl (executionTargetIds_subset _ _ ht)
  inputs := fun _ hn _ hm => .inl (order_closed hsort hn hm)
  reached := fun _ hn => (not_mem_nil hn).elim
  unchanged := fun _ hn => (not_mem_nil hn).elim
  stored := fun _ hn => (not_mem_nil hn).elim

end

def Raises (reg : Registry) (task : Task) : Prop :=
  (∃ t ∈ task.targetNodes.getD [], t ∉ task.pipeline.keys) ∨
    task.changedNodeIds ≠ [] ∧ ∃ data ∈ task.pipeline.values, reg.get data.name = none

lemma Preparing.initial (reg : Registry) (task : Task) (order : List String) :
    Preparing reg task order { task, status := .preparing, executionOrder := order,
                               requiring := executionTargetIds task order } where
  sameTask := rfl
  sameOrder := rfl
  visited := by simp [Run.restoredIds]
  inside := by simp
  disjoint := by simp
  targets := fun _ ht => .inr ht
  inputs := by simp
  reached := fun n _ hn => ⟨n, hn.resolve_left not_mem_nil, .refl⟩
  unaffected := by simp [Run.restoredIds]

lemma prepareCacheFrontier_cases (hsort : task.sorted = .ok order)
    (hi : P { task, status := .preparing, executionOrder := order,
                 requiring := executionTargetIds task order })
    (ht : ∀ run, P run → run.task = task)
    (hstep : ∀ i run run', P run → RequireStep reg (caches i) run run' → P run')
    (hrun : run = prepareCacheFrontier reg caches task) :
    run.status = .failed ∧ Raises reg task ∨ (order = [] ∨ task.changedNodeIds = []) ∧
        (run.status = .succeeded ∨ run.status = .processing) ∧
        run.remaining = order ∧ run.restoredIds = [] ∨
      task.changedNodeIds ≠ [] ∧ P run ∧ Prepared run := by
  have hdone : ∀ start : Run, start.status ≠ .preparing → Run.start reg task = start →
      run = start := by
    intro start hne hsta
    rw [hrun, prepareCacheFrontier, hsta, Run.prepare, if_neg hne]
  have hsta := Run.start.eq_def reg task
  rw [hsort] at hsta
  cases order with
  | nil =>
    obtain rfl := hdone _ (by simp) hsta
    exact .inr (.inl ⟨.inl rfl, .inl rfl, rfl, rfl⟩)
  | cons first rest =>
    dsimp only at hsta
    split at hsta
    · next hn =>
      obtain rfl := hdone _ (by simp) hsta
      exact .inr (.inl ⟨.inr hn, .inr rfl, rfl, rfl⟩)
    · next hsome =>
      split at hsta
      · next hany =>
        obtain rfl := hdone _ (by simp) hsta
        refine .inl ⟨rfl, .inr ⟨hsome, ?_⟩⟩
        simpa using hany
      · next hall =>
        have hreg : ∀ data ∈ task.pipeline.values, reg.get data.name ≠ none := by simpa using hall
        rw [hrun, prepareCacheFrontier, hsta]
        exact .inr (.inr ⟨hsome, prepare_prepared hreg ht hstep hi rfl (Nat.lt_succ_self _)⟩)

lemma closedPlan_of_sorted (caches : ℕ → Cache) (hsort : task.sorted = .ok order)
    (hrun : run = prepareCacheFrontier reg caches task) :
    run.status = .failed ∧ Raises reg task ∨ (run.status = .succeeded ∨ run.status = .processing) ∧
      ClosedPlan reg task order run.remaining run.restoredIds := by
  refine (prepareCacheFrontier_cases hsort (Preparing.initial reg task order)
    (fun _ h => h.sameTask) (fun _ _ _ h hs => h.step (order_subset_keys hsort) hs) hrun).imp_right
    fun hplan => ?_
  rcases hplan with ⟨_, hstatus, hremaining, hrestored⟩ | ⟨_, hprep, hend⟩
  · rw [hremaining, hrestored]
    exact ⟨hstatus, closedPlan_order hsort⟩
  · exact ⟨.inr hend.status, hprep.closedPlan hsort hend⟩

theorem closedPlan_prepareCacheFrontier (caches : ℕ → Cache) (hacyclic : Acyclic task.pipeline)
    (hrun : run = prepareCacheFrontier reg caches task) :
    run.status = .failed ∧ Raises reg task ∨
      ∃ order, task.sorted = .ok order ∧ (run.status = .succeeded ∨ run.status = .processing) ∧
        ClosedPlan reg task order run.remaining run.restoredIds := by
  by_cases htargets : ∀ t ∈ task.targetNodes.getD [], t ∈ task.pipeline.keys
  · obtain ⟨order, hsort⟩ := topologicalSort_ok_iff.mpr ⟨hacyclic, htargets⟩
    exact (closedPlan_of_sorted caches hsort hrun).imp_right fun hplan => ⟨order, hsort, hplan⟩
  · left
    cases hsort : task.sorted with
    | ok order => exact absurd (topologicalSort_ok_iff.mp ⟨order, hsort⟩).2 htargets
    | error e =>
      have hstart := Run.start.eq_def reg task
      rw [hsort] at hstart
      rw [hrun, prepareCacheFrontier, hstart]
      refine ⟨rfl, .inl ?_⟩
      simpa using htargets

def csvRegistry : Registry where
  get name := some {
    className := name
    outputNames := ["output_variables", "signal_out", "signal_error", "output"]
    outputNode := name = "SaveCSV" ∨ name = "ServiceOutputNode"
    dfOutput := name = "LoadCSV" ∨ name = "DataFrameFilter"
    runtimeFingerprint := name }
  serviceOutput := by decide

def csvTask (changedNodeIds : List String) : Task where
  executionOrder := ⟨2, "second"⟩
  pipeline := ((Dict.empty.set "save" ⟨"SaveCSV", false, .empty⟩).set "load"
    ⟨"LoadCSV", true, Dict.empty.set "signal_in" (.links [⟨"save", "signal_out"⟩])⟩).set "filter"
    ⟨"DataFrameFilter", true, Dict.empty.set "df" (.link ⟨"load", "output"⟩)⟩
  targetNodes := none
  changedNodeIds := changedNodeIds
  graphRevision := some 2

def csvCache : Cache :=
  Dict.empty.set "load" ⟨⟨1, "first"⟩, "LoadCSV", "LoadCSV",
      ["output_variables", "signal_out", "signal_error", "output"], (csvTask []).pipeline⟩

theorem closedPlan_csvTask :
    (prepareCacheFrontier csvRegistry (fun _ => csvCache) (csvTask ["filter"])).restoredIds =
        ["load"] ∧
      ∃ order, topologicalSort (csvTask ["filter"]).pipeline none = .ok order ∧
        ClosedPlan csvRegistry (csvTask ["filter"]) order ["filter"] ["load"] := by
  have hsort : topologicalSort (csvTask ["filter"]).pipeline (csvTask ["filter"]).targetNodes =
      .ok ["save", "load", "filter"] := by decide +kernel
  have hrestored : (prepareCacheFrontier csvRegistry (fun _ => csvCache)
      (csvTask ["filter"])).restoredIds = ["load"] := by decide +kernel
  refine ⟨hrestored, ?_⟩
  rcases closedPlan_prepareCacheFrontier (fun _ => csvCache)
    (topologicalSort_ok_iff.mp ⟨_, hsort⟩).1
    (Eq.refl (prepareCacheFrontier csvRegistry (fun _ => csvCache) (csvTask ["filter"])))
    with ⟨hfailed, _⟩ | ⟨order, ho, _, hplan⟩
  · exact absurd hfailed (by decide +kernel)
  · have hremaining : (prepareCacheFrontier csvRegistry (fun _ => csvCache)
        (csvTask ["filter"])).remaining = ["filter"] := by decide +kernel
    rw [hremaining, hrestored] at hplan
    exact ⟨order, ho, hplan⟩

end Dvt.Pipelines
