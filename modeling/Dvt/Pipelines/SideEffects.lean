import Dvt.Pipelines.Frontier

/-! The nodes with side effects and the plan that a cache leaves. -/

namespace Dvt.Pipelines

open Library Relation List

section

variable (reg : Registry) (cache : Cache) (task : Task)

def OutputNode (p : Pipeline) (n : String) : Prop :=
  ∃ data ∈ p.get? n, (reg.get data.name).any NodeClass.outputNode = true

def Demanded (order : List String) (n : String) : Prop :=
  ∃ t ∈ executionTargetIds task order, Upstream task.pipeline n t

def EffectsPlanned (order planned : List String) : Prop :=
  ∀ n, OutputNode reg task.pipeline n ∨ RequiresFresh reg task.pipeline n → Demanded task order n →
    n ∈ planned

def Missed (n m : String) : Prop :=
  restorePlan reg cache task n = none ∧ Feeds task.pipeline m n

def MissedPath (order : List String) (n : String) : Prop :=
  ∃ t ∈ executionTargetIds task order, ReflTransGen (Missed reg cache task) t n

structure Consulted (order : List String) (run : Run) : Prop where
  preparing : Preparing reg task order run
  required : ∀ n ∈ run.requiredNodeIds, restorePlan reg cache task n = none
  restored : ∀ n ∈ run.restoredIds, restorePlan reg cache task n ≠ none

variable {reg cache task} {order : List String} {run : Run}

lemma Consulted.step {run' : Run} (hk : order ⊆ task.pipeline.keys)
    (h : Consulted reg cache task order run) (hs : RequireStep reg cache run run') :
    Consulted reg cache task order run' := by
  have hp := h.preparing.step hk hs
  obtain rfl := h.preparing.sameTask
  cases hs with
  | plan hnil | unknown hdata hclass | skip hcons hskip => exact ⟨hp, h.required, h.restored⟩
  | restore hcons hfresh hkey hplan =>
    refine ⟨hp, h.required, ?_⟩
    intro n hn
    rw [Run.restoredIds, map_append, mem_append] at hn
    rcases hn with hn | hn
    · exact h.restored n hn
    · obtain rfl := mem_singleton.mp hn
      rw [hplan]
      exact Option.some_ne_none _
  | require hcons hfresh hdata hplan =>
    refine ⟨hp, ?_, h.restored⟩
    rintro n (_ | ⟨_, hn⟩)
    · exact hplan
    · exact h.required n hn

variable {n : String}

lemma Consulted.visited_of_missed (h : Consulted reg cache task order run) (hend : Prepared run)
    {t : String} (ht : t ∈ executionTargetIds task order)
    (hp : ReflTransGen (Missed reg cache task) t n) : n ∈ run.visitedNodeIds := by
  have hdone : ∀ m, run.Owes m → m ∈ run.visitedNodeIds := by
    intro m hm
    refine hm.resolve_right ?_
    rw [hend.requiring]
    exact not_mem_nil
  induction hp with
  | refl => exact hdone _ (h.preparing.targets _ ht)
  | @tail b c _ hbc ih =>
    have hreq : b ∈ run.requiredNodeIds :=
      ((h.preparing.visited b).mp ih).resolve_right fun hres => h.restored b hres hbc.1
    exact hdone _ (h.preparing.inputs b hreq c hbc.2)

lemma Consulted.mem_remaining_iff (hs : task.sorted = .ok order)
    (h : Consulted reg cache task order run) (hend : Prepared run) :
    n ∈ run.remaining ↔ restorePlan reg cache task n = none ∧ MissedPath reg cache task order n := by
  have hp : n ∈ run.remaining ↔ n ∈ run.requiredNodeIds := by
    rw [hend.remaining, h.preparing.sameOrder, mem_filter, decide_eq_true_eq]
    exact ⟨fun hn => hn.2, fun hn => ⟨h.preparing.required_subset hs hn, hn⟩⟩
  rw [hp]
  constructor
  · intro hn
    have hv : n ∈ run.visitedNodeIds := (h.preparing.visited n).mpr (.inl hn)
    obtain ⟨t, ht, hpath⟩ := h.preparing.reached n (h.preparing.inside n hv) (.inl hv)
    exact ⟨h.required n hn, t, ht,
      ReflTransGen.mono (fun a b hab => ⟨h.required a hab.1, hab.2⟩) _ _ hpath⟩
  · rintro ⟨hnone, t, ht, hpath⟩
    have hv := h.visited_of_missed hend ht hpath
    exact ((h.preparing.visited n).mp hv).resolve_right fun hres => h.restored n hres hnone

lemma restorePlan_outputNode (hn : OutputNode reg task.pipeline n) :
    restorePlan reg cache task n = none := by
  obtain ⟨data, hdata, hany⟩ := hn
  obtain ⟨nodeClass, hclass, hout⟩ := (Option.any_eq_true _ _).mp hany
  rw [restorePlan, hdata, Option.bind_some, hclass, Option.bind_some, Option.filter_eq_none_iff]
  intro generation _
  simp [canRestore, hout]

variable {s : String}

lemma restorePlan_downstream_fresh (hs : RequiresFresh reg task.pipeline s)
    (hup : Upstream task.pipeline s n) : restorePlan reg cache task n = none := by
  by_contra hne
  obtain ⟨generation, hplan⟩ := Option.ne_none_iff_exists'.mp hne
  exact (restorePlan_spec hplan).2 (mem_freshPaths.mpr ⟨s, hs, hup⟩)

lemma missed_of_fresh (hs : RequiresFresh reg task.pipeline s)
    (hup : Upstream task.pipeline s n) : ReflTransGen (Missed reg cache task) n s := by
  induction hup with
  | refl => exact .refl
  | tail hp hbc ih =>
    exact .head ⟨restorePlan_downstream_fresh hs (hp.tail hbc), hbc⟩ ih

lemma mem_order_of_demanded (hs : task.sorted = .ok order)
    (hn : Demanded task order n) : n ∈ order := by
  obtain ⟨t, ht, hup⟩ := hn
  induction hup using ReflTransGen.head_induction_on with
  | refl => exact executionTargetIds_subset _ _ ht
  | head hab _ ih => exact order_closed hs ih hab

lemma Consulted.initial (reg : Registry) (cache : Cache) (task : Task) (order : List String) :
    Consulted reg cache task order { task, status := .preparing, executionOrder := order,
                                     requiring := executionTargetIds task order } :=
  ⟨Preparing.initial reg task order, by simp, by simp [Run.restoredIds]⟩

theorem effectsPlanned_iff (hsort : task.sorted = .ok order)
    (hreg : task.changedNodeIds ≠ [] → ∀ data ∈ task.pipeline.values, reg.get data.name ≠ none)
    (hrun : run = prepareCacheFrontier reg (fun _ => cache) task) :
    EffectsPlanned reg task order run.remaining ↔ (task.changedNodeIds = [] ∨
        ∀ n, OutputNode reg task.pipeline n → Demanded task order n →
          MissedPath reg cache task order n) := by
  rcases prepareCacheFrontier_cases hsort (Consulted.initial reg cache task order)
    (fun _ h => h.preparing.sameTask) (fun _ _ _ h hs => h.step (order_subset_keys hsort) hs)
    hrun with ⟨_, hraises⟩ | ⟨hfull, _, hremaining, _⟩ | ⟨hchanged, h, hend⟩
  · obtain ⟨_, htargets⟩ := topologicalSort_ok_iff.mp ⟨order, hsort⟩
    rcases hraises with ⟨t, ht, hmissing⟩ | ⟨hchanged, data, hdata, hnone⟩
    · exact absurd (htargets t ht) hmissing
    · exact absurd hnone (hreg hchanged data hdata)
  · rw [hremaining]
    refine iff_of_true (fun n _ hn => mem_order_of_demanded hsort hn) ?_
    rcases hfull with rfl | hnone
    · exact .inr fun n _ hn => (not_mem_nil (mem_order_of_demanded hsort hn)).elim
    · exact .inl hnone
  · rw [or_iff_right hchanged]
    constructor
    · intro heffects n hn hdem
      exact ((h.mem_remaining_iff hsort hend).mp (heffects n (.inl hn) hdem)).2
    · rintro hmissed n (hn | hn) hdem
      · exact (h.mem_remaining_iff hsort hend).mpr ⟨restorePlan_outputNode hn, hmissed n hn hdem⟩
      · obtain ⟨t, ht, hup⟩ := hdem
        exact (h.mem_remaining_iff hsort hend).mpr
          ⟨restorePlan_downstream_fresh hn .refl, t, ht, missed_of_fresh hn hup⟩

end

lemma sort_csvTask (changedNodeIds : List String) :
    topologicalSort (csvTask changedNodeIds).pipeline (csvTask changedNodeIds).targetNodes =
      .ok ["save", "load", "filter"] := by
  change topologicalSort (csvTask []).pipeline (csvTask []).targetNodes = _
  decide +kernel

theorem effectsPlanned_csvTask :
    EffectsPlanned csvRegistry (csvTask ["save"]) ["save", "load", "filter"]
      (prepareCacheFrontier csvRegistry (fun _ => csvCache) (csvTask ["save"])).remaining := by
  refine (effectsPlanned_iff (sort_csvTask _) (fun _ _ _ => Option.some_ne_none _) rfl).mpr (.inr ?_)
  rintro n _ hn
  have hmem := mem_order_of_demanded (sort_csvTask _) hn
  have hload : Missed csvRegistry csvCache (csvTask ["save"]) "filter" "load" :=
    ⟨by decide +kernel, by decide +kernel, by decide +kernel⟩
  have hsave : Missed csvRegistry csvCache (csvTask ["save"]) "load" "save" :=
    ⟨by decide +kernel, by decide +kernel, by decide +kernel⟩
  refine ⟨"filter", by decide +kernel, ?_⟩
  simp only [mem_cons, not_mem_nil, or_false] at hmem
  rcases hmem with rfl | rfl | rfl
  · exact .tail (.single hload) hsave
  · exact .single hload
  · exact .refl

theorem save_bypassed_csvTask : ¬ EffectsPlanned csvRegistry (csvTask ["filter"])
    ["save", "load", "filter"]
    (prepareCacheFrontier csvRegistry (fun _ => csvCache) (csvTask ["filter"])).remaining := by
  intro heffects
  have hsave : Feeds (csvTask ["filter"]).pipeline "save" "load" :=
    ⟨by decide +kernel, by decide +kernel⟩
  have hload : Feeds (csvTask ["filter"]).pipeline "load" "filter" :=
    ⟨by decide +kernel, by decide +kernel⟩
  have hplanned := heffects "save" (.inl ⟨⟨"SaveCSV", false, .empty⟩, rfl, rfl⟩)
    ⟨"filter", by decide +kernel, .tail (.single hsave) hload⟩
  revert hplanned
  decide +kernel

end Dvt.Pipelines
