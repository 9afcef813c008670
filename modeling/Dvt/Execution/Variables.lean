import Dvt.Execution.Runs
import Dvt.Inputs.Dependence
import Dvt.Pipelines.Restoring

/-! Two runs of one graph with different variables: what the second restores of the first. -/

namespace Dvt.Execution

open Library Pipelines Relation
open Inputs (Value Variables NodeOutputs)

variable {α τ : Type}

structure Circumstances (α : Type) where
  outputs : NodeOutputs α
  moment : ℕ

section

variable (P : Processor α τ)

def Processor.runtimeInputsOf (data : NodeData) : Dict String (Inputs.NodeInput α) :=
  (P.definition data.name).inputs.runtimeInputs (data.inputs.mapValues (toNodeInput P.constant))

def Processor.context (c : Circumstances α) (nodeId : String) (data : NodeData) :
    Inputs.NodeContext α τ :=
  ⟨P.evaluator, P.render, nodeId, (P.definition data.name).inputs, c.outputs, c.moment⟩

def Processor.fullKwargs (c : Circumstances α) (nodeId : String) (data : NodeData)
    (projectVariables : Variables α) : Except String (Dict String (Value α)) :=
  Inputs.buildNodeKwargs (P.context c nodeId data) .full (data.inputs.mapValues (toNodeInput P.constant))
    projectVariables

variable (circumstances : String → Circumstances α) (first second : Variables α)

def Processor.Resolves (n : String) : Prop :=
  ∃ data ∈ P.task.pipeline.get? n, ∃ kwargs,
    P.fullKwargs (circumstances n) n data first = .ok kwargs

def Processor.Agrees (n : String) : Prop :=
  ∀ data ∈ P.task.pipeline.get? n, ∀ kwargs, P.fullKwargs (circumstances n) n data first = .ok kwargs →
    ∃ kwargs', P.fullKwargs (circumstances n) n data second = .ok kwargs' ∧
      ∀ name input, (name, .unlinked input) ∈ (P.runtimeInputsOf data).entries →
        kwargs'.get? name = kwargs.get? name

structure FirstRun (run : Run) : Prop where
  pipeline : run.task.pipeline = P.task.pipeline
  processed : Processed P.registry run
  resolved : ∀ n ∈ run.executedNodes, P.Resolves circumstances first n

/-- What a run restores of the first one was computed from the values it would use itself. -/
def RestoresAgree : Prop :=
  ∀ (changed : List String) (caches : ℕ → Cache) (run : Run), changed ⊆ P.task.pipeline.keys →
    FirstRun P circumstances first run →
    ∀ entry ∈ (prepareCacheFrontier P.registry caches
        { P.task with changedNodeIds := changed }).restoredNodes,
      run.generation P.registry entry.1 = some entry.2 →
      ∀ a, Upstream P.task.pipeline a entry.1 → a ∈ run.executedNodes →
        P.Agrees circumstances first second a

def Processor.Indifferent (n : String) : Prop :=
  ∀ data ∈ P.task.pipeline.get? n, ∀ linked state kwargs,
    Inputs.Built (P.context (circumstances n) n data) (P.runtimeInputsOf data) first linked state kwargs →
    Inputs.SameValues (P.context (circumstances n) n data) (P.runtimeInputsOf data)
      (state.kwargs.get? "connection") linked first second

variable {P circumstances first second}

lemma agrees_iff :
    P.Agrees circumstances first second n ↔ P.Indifferent circumstances first second n := by
  constructor
  · intro h data hdata linked state kwargs hb
    exact (Inputs.kwargs_agree_iff hb).mp (h data hdata kwargs hb.buildNodeKwargs_eq)
  · intro h data hdata kwargs hk
    obtain ⟨linked, state, hb⟩ := Inputs.exists_built hk
    exact (Inputs.kwargs_agree_iff hb).mpr (h data hdata linked state kwargs hb)

theorem restoresAgree_iff : RestoresAgree P circumstances first second ↔
    ∀ n, Restorable P.registry P.task n → P.Resolves circumstances first n →
      ∀ a, Upstream P.task.pipeline a n → P.Resolves circumstances first a →
        P.Indifferent circumstances first second a := by
  constructor
  · intro h n hn hresolves a hup ha
    obtain ⟨order, hsort, hdemanded⟩ := hn.demanded
    obtain ⟨data, nodeClass, hdata, hclass, hstore, hdf, -⟩ := hn.stored
    obtain ⟨d, hd, hapart⟩ := hn.apart
    have hnorder : n ∈ order := mem_order_of_demanded hsort hdemanded
    have haorder : a ∈ order := by
      obtain ⟨t, ht, hnt⟩ := hdemanded
      exact mem_order_of_demanded hsort ⟨t, ht, hup.trans hnt⟩
    obtain ⟨run, hprocessed, htask, hexecuted⟩ := exists_processed P.registry hsort
      (List.ne_nil_of_mem hnorder) (P.Resolves circumstances first)
    have hpipeline : run.task.pipeline = P.task.pipeline := by rw [htask]
    have hgen : run.generation P.registry n = some ⟨run.task.executionOrder, nodeClass.className,
        nodeClass.runtimeFingerprint, nodeClass.outputNames, run.task.pipeline⟩ := by
      rw [Run.generation, if_pos ((hexecuted n).mpr ⟨hnorder, hresolves⟩), hpipeline, hdata]
      simp [hclass, hstore, hdf]
    refine agrees_iff.mp (h [d] (fun _ => Dict.empty.set n _) run ?_
      ⟨hpipeline, hprocessed, fun m hm => ((hexecuted m).mp hm).2⟩ _
      (restored_of_restorable hn hapart ?_) hgen a hup ((hexecuted a).mpr ⟨haorder, ha⟩))
    · exact fun m hm => List.mem_singleton.mp hm ▸ hd
    · intro data' nodeClass' hdata' hclass'
      cases hdata.symm.trans hdata'
      cases hclass.symm.trans hclass'
      exact ⟨rfl, rfl, rfl⟩
  · intro h changed caches run hchanged hrun entry hentry hgen a hup ha
    have hexecuted : entry.1 ∈ run.executedNodes := by
      rw [Run.generation] at hgen
      split at hgen
      · assumption
      · cases hgen
    exact agrees_iff.mpr (h entry.1 (restorable_of_restored hchanged hentry)
      (hrun.resolved _ hexecuted) a hup (hrun.resolved a ha))

end

def regionTask (path : NodeRuntimeInputValue) : Task where
  executionOrder := ⟨1, "first"⟩
  pipeline := (Dict.empty.set "load" ⟨"LoadCSV", true, Dict.empty.set "path" path⟩).set "filter"
    ⟨"DataFrameFilter", true, Dict.empty.set "df" (.link ⟨"load", "output"⟩)⟩
  targetNodes := none
  changedNodeIds := []
  graphRevision := none

def regionProcessor (path : NodeRuntimeInputValue) : Processor Bool Unit :=
  { sampleProcessor (regionTask path).pipeline with
    definition name := { sampleDefinition name with
      inputs := { (sampleDefinition name).inputs with
        inputDefinitions := (Dict.empty.set "path" { type := () }).set "df" { type := () } } }
    evaluator := {
      isIdentifier _ := true
      defaultPolicy := { name := "default" }
      run _ _ _ text context := match context.get? text with
        | some (.value value) => .ok value
        | _ => .error s!"Variable '{text}' not found."
      coerce value _ _ := .ok value }
    task := regionTask path
    mode := .full }

def regionIn (name : String) : Variables Bool := Dict.empty.set "region" (.text name)

def regionCircumstances (_ : String) : Circumstances Bool where
  outputs _ _ := some .none
  moment := 0

def loadGeneration (path : NodeRuntimeInputValue) : Generation :=
  ⟨⟨1, "first"⟩, "LoadCSV", "LoadCSV", ["output_variables", "signal_out", "signal_error", "output"],
    (regionTask path).pipeline⟩

def restoringRun (path : NodeRuntimeInputValue) : Run :=
  prepareCacheFrontier csvRegistry (fun _ => Dict.empty.set "load" (loadGeneration path))
    { regionTask path with changedNodeIds := ["filter"] }

theorem restoresAgree_const : (restoringRun (.const "orders.csv")).restoredIds = ["load"] ∧
    RestoresAgree (regionProcessor (.const "orders.csv")) regionCircumstances (regionIn "eu")
      (regionIn "us") := by
  refine ⟨by decide +kernel, restoresAgree_iff.mpr fun _ _ _ a _ _ => agrees_iff.mp ?_⟩
  intro data hdata kwargs hk
  refine ⟨kwargs, ?_, fun _ _ _ => rfl⟩
  simp only [regionProcessor, regionTask, Dict.get?_set] at hdata
  split_ifs at hdata with hf hl
  · cases hdata
    subst hf
    exact hk
  · cases hdata
    subst hl
    exact hk
  · cases hdata

def regionPath : NodeRuntimeInputValue := .expr "region" .single

def regionRun : Run :=
  ([.executed, .executed] : List NodeOutcome).foldl (fun run outcome => run.processNode outcome)
    (prepareCacheFrontier csvRegistry (fun _ => .empty) (regionTask regionPath))

lemma fullKwargs_load (name : String) :
    (regionProcessor regionPath).fullKwargs (regionCircumstances "load") "load"
        ⟨"LoadCSV", true, Dict.empty.set "path" regionPath⟩ (regionIn name) =
      .ok (Dict.empty.set "path" (.text name)) := rfl

theorem not_restoresAgree_region :
    ¬ RestoresAgree (regionProcessor regionPath) regionCircumstances (regionIn "eu") (regionIn "us") := by
  intro h
  have hresolved : ∀ n ∈ regionRun.executedNodes,
      (regionProcessor regionPath).Resolves regionCircumstances (regionIn "eu") n := by
    rw [show regionRun.executedNodes = ["filter", "load"] by decide +kernel]
    intro n hn
    simp only [List.mem_cons, List.not_mem_nil, or_false] at hn
    rcases hn with rfl | rfl
    · exact ⟨_, rfl, _, rfl⟩
    · exact ⟨_, rfl, _, rfl⟩
  have hentry : ("load", loadGeneration regionPath) ∈ (restoringRun regionPath).restoredNodes := by
    decide +kernel
  obtain ⟨kwargs', hkwargs', hagree⟩ := h ["filter"] _ regionRun (by decide +kernel)
    ⟨rfl, ⟨fun _ => .empty, [.executed, .executed], rfl⟩, hresolved⟩ _ hentry (by decide +kernel)
    "load" .refl (by decide) _ rfl _ (fullKwargs_load "eu")
  cases hkwargs'.symm.trans (fullKwargs_load "us")
  have hpath := hagree "path" _ List.mem_cons_self
  exact absurd (Value.text.inj (Option.some.inj hpath)) (by decide)

end Dvt.Execution
