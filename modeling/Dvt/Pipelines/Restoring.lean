import Dvt.Pipelines.SideEffects

/-! The order of a run, and what its cache frontier restores. -/

namespace Dvt.Pipelines

open Library Relation List

variable {p : Pipeline} {order planned : List String} {m n : String}

lemma Ordered.pairwise (h : Ordered p order) (hn : order.Nodup) :
    order.Pairwise fun a b => ¬ Feeds p b a := by
  rw [pairwise_iff_getElem]
  intro i j hi hj hij hf
  have hmem := h (order.take i) order[i] (order.drop (i + 1))
    (by rw [← drop_eq_getElem_cons hi, take_append_drop]) _ hf
  obtain ⟨k, hk, he⟩ := mem_take_iff_getElem.mp hmem
  have := (hn.getElem_inj_iff).mp he
  omega

lemma sublist_fullOrder {targetNodes : Option (List String)}
    (h : topologicalSort p targetNodes = .ok order) : order.Sublist (fullOrder p) := by
  rw [topologicalSort, topologicalSortBy] at h
  split at h
  · cases h
  · dsimp only at h
    split at h
    · cases h
    · split at h
      · cases h
        exact List.Sublist.refl _
      · cases h
        exact filter_sublist

lemma mem_before_of_feeds (hsub : planned.Sublist (fullOrder p)) {before after : List String}
    (hs : planned = before ++ n :: after) (hm : m ∈ planned) (hf : Feeds p m n) :
    m ∈ before := by
  have ho := ordered_fullOrderBy (enumerates_dependentsOf p)
  have hp := (ho.pairwise (nodup_fullOrder p)).sublist hsub
  rw [hs] at hm hp
  rcases mem_append.mp hm with hm | hm
  · exact hm
  · rcases mem_cons.mp hm with rfl | hm
    · have hn : m ∈ fullOrder p := hsub.subset (hs ▸ mem_append_right _ mem_cons_self)
      exact absurd (ho.idxOf_lt hn hf) (Nat.lt_irrefl _)
    · exact absurd hf ((pairwise_cons.mp (pairwise_append.mp hp).2.1).1 m hm)

variable {reg : Registry} {caches : ℕ → Cache} {task : Task} {run run' : Run}

structure Restoring (reg : Registry) (caches : ℕ → Cache) (task : Task) (run : Run) : Prop where
  sameTask : run.task = task
  nodup : run.restoredIds.Nodup
  visited : run.restoredIds ⊆ run.visitedNodeIds
  plans : ∀ entry ∈ run.restoredNodes, ∃ i, restorePlan reg (caches i) task entry.1 = some entry.2

lemma Restoring.step (h : Restoring reg caches task run) {i : ℕ}
    (hs : RequireStep reg (caches i) run run') : Restoring reg caches task run' := by
  cases hs with
  | plan _ | skip _ _ | unknown _ _ => exact ⟨h.sameTask, h.nodup, h.visited, h.plans⟩
  | @restore nodeId rest generation _ hfresh _ hplan =>
    have hids : (run.restoredNodes ++ [(nodeId, generation)]).map Prod.fst =
        run.restoredIds ++ [nodeId] := by simp [Run.restoredIds]
    refine ⟨h.sameTask, ?_, ?_, ?_⟩
    · rw [Run.restoredIds, hids, ← concat_eq_append]
      exact h.nodup.concat fun hmem => hfresh (h.visited hmem)
    · rw [Run.restoredIds, hids]
      intro n hn
      rcases mem_append.mp hn with hn | hn
      · exact mem_cons_of_mem _ (h.visited hn)
      · exact mem_singleton.mp hn ▸ mem_cons_self
    · intro entry hentry
      rcases mem_append.mp hentry with hold | hnew
      · exact h.plans entry hold
      · rw [mem_singleton.mp hnew]
        exact ⟨i, h.sameTask ▸ hplan⟩
  | require _ _ _ _ =>
    exact ⟨h.sameTask, h.nodup, fun n hn => mem_cons_of_mem _ (h.visited hn), h.plans⟩

lemma restoring_prepare (fuel : ℕ) (h : Restoring reg caches task run) :
    Restoring reg caches task (run.prepare reg caches fuel) := by
  induction fuel generalizing run with
  | zero => exact h
  | succ fuel ih =>
    rw [Run.prepare]
    split
    · exact ih (h.step (requireStep reg (caches fuel) run))
    · exact h

lemma restoring_start (reg : Registry) (caches : ℕ → Cache) (task : Task) :
    Restoring reg caches task (Run.start reg task) := by
  have hn : ∀ run : Run, run.task = task → run.restoredNodes = [] →
      Restoring reg caches task run := by
    intro run ht hnil
    refine ⟨ht, ?_, ?_, ?_⟩ <;> simp [Run.restoredIds, hnil]
  rw [Run.start]
  split
  · exact hn _ rfl rfl
  · exact hn _ rfl rfl
  · split_ifs
    · exact hn _ rfl rfl
    · exact hn _ rfl rfl
    · exact hn _ rfl rfl

lemma restoring_prepareCacheFrontier (reg : Registry) (caches : ℕ → Cache) (task : Task) :
    Restoring reg caches task (prepareCacheFrontier reg caches task) :=
  restoring_prepare _ (restoring_start reg caches task)

variable {entry : String × Generation} {changed : List String} {t : String} {cache : Cache}
  {generation : Generation}

lemma prepareCacheFrontier_of_start (caches : ℕ → Cache) {start : Run}
    (hsta : Run.start reg task = start) (hs : start.status ≠ .preparing) :
    prepareCacheFrontier reg caches task = start := by
  rw [prepareCacheFrontier, hsta, Run.prepare, if_neg hs]

lemma computed_of_restored (h : entry ∈ (prepareCacheFrontier reg caches task).restoredNodes) :
    (∀ data ∈ task.pipeline.values, reg.get data.name ≠ none) ∧ task.changedNodeIds ≠ [] ∧
      ∃ order, task.sorted = .ok order ∧
        ClosedPlan reg task order (prepareCacheFrontier reg caches task).remaining
          (prepareCacheFrontier reg caches task).restoredIds := by
  have hs := Run.start.eq_def reg task
  cases hsort : task.sorted with
  | error error =>
    rw [hsort] at hs
    rw [prepareCacheFrontier_of_start caches hs (by simp)] at h
    cases h
  | ok order =>
    rw [hsort] at hs
    cases order with
    | nil =>
      rw [prepareCacheFrontier_of_start caches hs (by simp)] at h
      cases h
    | cons first rest =>
      dsimp only at hs
      split at hs
      · rw [prepareCacheFrontier_of_start caches hs (by simp)] at h
        cases h
      · next hc =>
        split at hs
        · rw [prepareCacheFrontier_of_start caches hs (by simp)] at h
          cases h
        · next hall =>
          have hreg : ∀ data ∈ task.pipeline.values, reg.get data.name ≠ none := by
            simpa using hall
          refine ⟨hreg, hc, _, rfl, ?_⟩
          rcases closedPlan_of_sorted caches hsort rfl with ⟨-, hr⟩ | ⟨-, hplan⟩
          · rcases hr with ⟨t, ht, hm⟩ | ⟨-, data, hdata, hn⟩
            · exact absurd ((topologicalSort_ok_iff.mp ⟨_, hsort⟩).2 t ht) hm
            · exact absurd hn (hreg data hdata)
          · exact hplan

structure Restorable (reg : Registry) (task : Task) (n : String) : Prop where
  registered : ∀ data ∈ task.pipeline.values, reg.get data.name ≠ none
  demanded : ∃ order, task.sorted = .ok order ∧ Demanded task order n
  stored : ∃ data nodeClass, task.pipeline.get? n = some data ∧ reg.get data.name = some nodeClass ∧
    data.storeEnabled = true ∧ nodeClass.dfOutput = true ∧ nodeClass.outputNode = false
  settled : ∀ s, RequiresFresh reg task.pipeline s → ¬ Upstream task.pipeline s n
  apart : ∃ d ∈ task.pipeline.keys, ¬ Upstream task.pipeline d n

lemma upstream_of_through {p : Pipeline} {planned : List String}
    (h : ReflTransGen (Through p planned) t n) : Upstream p n t := by
  induction h with
  | refl => exact .refl
  | tail _ hbc ih => exact .head hbc.2 ih

lemma restorable_of_restored (hc : changed ⊆ task.pipeline.keys)
    (h : entry ∈ (prepareCacheFrontier reg caches
      { task with changedNodeIds := changed }).restoredNodes) : Restorable reg task entry.1 := by
  obtain ⟨hreg, hne, order, hs, hplan⟩ := computed_of_restored h
  have hid : entry.1 ∈ (prepareCacheFrontier reg caches
      { task with changedNodeIds := changed }).restoredIds := mem_map_of_mem h
  obtain ⟨i, hr⟩ := (restoring_prepareCacheFrontier reg caches _).plans entry h
  obtain ⟨data, nodeClass, hdata, hclass, -, hcan⟩ := restorePlan_eq_some hr
  simp only [canRestore, decide_eq_true_eq, Bool.not_eq_true'] at hcan
  obtain ⟨-, -, hstore, hdf, hout⟩ := hcan
  refine ⟨hreg, ⟨order, hs, ?_⟩, ⟨data, nodeClass, hdata, hclass, hstore, hdf, hout⟩,
    hplan.stored _ hid, ?_⟩
  · obtain ⟨t, ht, hp⟩ := hplan.reached _ hid
    exact ⟨t, ht, upstream_of_through hp⟩
  · obtain ⟨d, hd⟩ := exists_mem_of_ne_nil _ hne
    exact ⟨d, hc hd, hplan.unchanged _ hid d hd (hc hd)⟩

lemma missed_of_upstream (ha : Acyclic task.pipeline)
    (hm : ∀ m, m ≠ n → restorePlan reg cache task m = none)
    (hup : Upstream task.pipeline n t) : ReflTransGen (Missed reg cache task) t n := by
  induction hup with
  | refl => exact .refl
  | @tail b c hp hbc ih =>
    have hne : c ≠ n := by
      rintro rfl
      exact ha c (.tail' hp hbc)
    exact .head ⟨hm c hne, hbc⟩ ih

lemma restored_of_only (hreg : ∀ data ∈ task.pipeline.values, reg.get data.name ≠ none)
    (hc : task.changedNodeIds ≠ [])
    (hsort : task.sorted = .ok order)
    (hd : Demanded task order n) (hplan : restorePlan reg cache task n = some generation)
    (hmiss : ∀ m, m ≠ n → restorePlan reg cache task m = none) :
    (n, generation) ∈ (prepareCacheFrontier reg (fun _ => cache) task).restoredNodes := by
  obtain ⟨ha, htar⟩ := topologicalSort_ok_iff.mp ⟨order, hsort⟩
  obtain ⟨t, ht, hup⟩ := hd
  rcases prepareCacheFrontier_cases hsort (Consulted.initial reg cache task order)
    (fun _ h => h.preparing.sameTask) (fun _ _ _ h hs => h.step (order_subset_keys hsort) hs)
    (Eq.refl (prepareCacheFrontier reg (fun _ => cache) task)) with
    ⟨-, ⟨t, ht, hm⟩ | ⟨-, data, hdata, hn⟩⟩ | ⟨rfl | hnil, -⟩ | ⟨-, h, hend⟩
  · exact absurd (htar t ht) hm
  · exact absurd hn (hreg data hdata)
  · exact absurd (executionTargetIds_subset _ _ ht) not_mem_nil
  · exact absurd hnil hc
  · have hv := h.visited_of_missed hend ht (missed_of_upstream ha hmiss hup)
    have hr := ((h.preparing.visited n).mp hv).resolve_left fun hreq => by
      rw [h.required n hreq] at hplan
      cases hplan
    obtain ⟨entry, hentry, rfl⟩ := mem_map.mp hr
    obtain ⟨_, hep⟩ :=
      (restoring_prepareCacheFrontier reg (fun _ => cache) task).plans entry hentry
    rw [← Option.some.inj (hep.symm.trans hplan)]
    exact hentry

lemma restored_of_restorable (h : Restorable reg task n) {d : String}
    (ha : ¬ Upstream task.pipeline d n)
    (hgen : ∀ data nodeClass, task.pipeline.get? n = some data → reg.get data.name = some nodeClass →
      generation.nodeName = nodeClass.className ∧
        generation.nodeRuntimeFingerprint = nodeClass.runtimeFingerprint ∧
        generation.outputNames = nodeClass.outputNames) :
    (n, generation) ∈ (prepareCacheFrontier reg (fun _ => Dict.empty.set n generation)
      { task with changedNodeIds := [d] }).restoredNodes := by
  obtain ⟨order, hsort, hd⟩ := h.demanded
  obtain ⟨data, nodeClass, hdata, hclass, hstore, hdf, hout⟩ := h.stored
  refine restored_of_only h.registered (cons_ne_nil d []) hsort hd ?_ ?_
  · have hcan : canRestore reg { task with changedNodeIds := [d] } n data nodeClass = true := by
      simp only [canRestore, decide_eq_true_eq, hstore, hdf, hout, Bool.not_false, and_true]
      constructor
      · intro hmem
        obtain ⟨s, hs, -, hs'⟩ := mem_findAllDependents.mp hmem
        exact ha (mem_singleton.mp hs ▸ hs')
      · intro hmem
        obtain ⟨s, hs, hs'⟩ := mem_freshPaths.mp hmem
        exact h.settled s hs hs'
    have hget : getRestorePlan (Dict.empty.set n generation) n nodeClass = some generation := by
      rw [getRestorePlan, Dict.get?_set, if_pos rfl, Option.filter_eq_some_iff]
      exact ⟨rfl, decide_eq_true (hgen data nodeClass hdata hclass)⟩
    rw [restorePlan, hdata, Option.bind_some, hclass, Option.bind_some, hget,
      Option.filter_eq_some_iff]
    exact ⟨rfl, hcan⟩
  · intro m hm
    by_contra hne
    obtain ⟨g, hg⟩ := Option.ne_none_iff_exists'.mp hne
    obtain ⟨_, _, _, _, hget, _⟩ := restorePlan_eq_some hg
    rw [getRestorePlan, Dict.get?_set, if_neg hm] at hget
    cases hget

lemma executedNodes_foldl (outcome : String → NodeOutcome)
    (ho : ∀ n, outcome n = .executed ∨ outcome n = .skipped) (run : Run) :
    (run.remaining.map outcome).foldl (fun run outcome => run.processNode outcome) run =
      { run with
        remaining := []
        executedNodes := (run.remaining.filter (outcome · = .executed)).reverse ++
          run.executedNodes } := by
  induction hr : run.remaining generalizing run with
  | nil =>
    cases run
    simp_all
  | cons m rest ih =>
    rw [map_cons, foldl_cons]
    have hstep : run.processNode (outcome m) = { run with
        remaining := rest
        executedNodes := if outcome m = .executed then m :: run.executedNodes
          else run.executedNodes } := by
      rw [Run.processNode, hr]
      rcases ho m with h | h <;> simp [h]
    rw [hstep, ih _ rfl]
    by_cases h : outcome m = .executed <;> simp [h]

def Processed (reg : Registry) (run : Run) : Prop :=
  ∃ (caches : ℕ → Cache) (outcomes : List NodeOutcome),
    run = outcomes.foldl (fun run outcome => run.processNode outcome)
      (prepareCacheFrontier reg caches run.task)

lemma exists_processed (reg : Registry) (hsort : task.sorted = .ok order) (hne : order ≠ [])
    (chosen : String → Prop) :
    ∃ run, Processed reg run ∧ run.task = { task with changedNodeIds := [] } ∧
      ∀ m, m ∈ run.executedNodes ↔ m ∈ order ∧ chosen m := by
  classical
  obtain ⟨start, hsta, hs, ht, hr, hn⟩ : ∃ start : Run,
      Run.start reg { task with changedNodeIds := [] } = start ∧ start.status ≠ .preparing ∧
        start.task = { task with changedNodeIds := [] } ∧ start.remaining = order ∧
        start.executedNodes = [] := by
    refine ⟨_, rfl, ?_⟩
    rw [Run.start, hsort]
    cases order with
    | nil => exact absurd rfl hne
    | cons first rest => exact ⟨by simp, rfl, rfl, rfl⟩
  set outcome : String → NodeOutcome := fun m => if chosen m then .executed else .skipped
  have hf := executedNodes_foldl outcome
    (fun m => by by_cases h : chosen m <;> simp [outcome, h]) start
  rw [hr, hn, append_nil] at hf
  refine ⟨{ start with
      remaining := []
      executedNodes := (order.filter (outcome · = .executed)).reverse },
    ⟨fun _ => .empty, order.map outcome, ?_⟩, ht, fun m => ?_⟩
  · have hp := prepareCacheFrontier_of_start (fun _ => .empty) hsta hs
    rw [← ht] at hp
    rw [hp]
    exact hf.symm
  · by_cases h : chosen m <;> simp [outcome]

end Dvt.Pipelines
