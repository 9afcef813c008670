import Dvt.Execution.Runs

/-! Which runs execute each node at most once. -/

namespace Dvt.Execution

open Library Pipelines List

variable {n : String} {result : Except Raised NodeResult} {r : NodeResult} {α τ : Type}

structure RunOnce (s : State α) : Prop where
  execute : s.executeCalls.Nodup
  executed : s.executedNodes.Nodup
  skipped : s.skippedNodes.Nodup
  failed : s.failedNodes.Nodup
  restored : s.restoredNodes.Nodup
  disjoint : ∀ n ∈ s.executedNodes, n ∉ s.skippedNodes

def Visit.Invalid (visit : Visit α) : Prop := ∃ message, visit.validate = .invalid message

def Processor.Unhandled (P : Processor α τ) (visit : Visit α) (n : String) : Prop :=
  visit.validate = .passed ∧ visit.Fails ∧ P.hasErrorSignalDownstream n = false

variable {P : Processor α τ} {visit : Visit α} {s s' : State α} {node : Node}

lemma RunOnce.launch (h : RunOnce s) (hnew : n ∉ s.executeCalls) : RunOnce (s.launch n) := by
  refine ⟨?_, h.executed, h.skipped, h.failed, h.restored, h.disjoint⟩
  dsimp only [State.launch, State.executes]
  rw [← concat_eq_append]
  exact h.execute.concat hnew

lemma RunOnce.skip (h : RunOnce s) (hnew : n ∉ s.executedNodes) : RunOnce (s.skip n) := by
  refine ⟨h.execute, h.executed, nodup_appendOnce h.skipped, h.failed, h.restored, ?_⟩
  intro m hm hs
  rcases mem_appendOnce.mp hs with hold | rfl
  · exact h.disjoint m hm hold
  · exact hnew hm

lemma RunOnce.fail (h : RunOnce s) : RunOnce (s.fail n) :=
  ⟨h.execute, h.executed, h.skipped, nodup_appendOnce h.failed, h.restored, h.disjoint⟩

lemma RunOnce.finish (h : RunOnce s) (hnew : n ∉ s.executedNodes) (hs : n ∉ s.skippedNodes) :
    RunOnce (s.finish n) := by
  refine ⟨h.execute, ?_, h.skipped, h.failed, h.restored, ?_⟩
  · dsimp only [State.finish]
    rw [← concat_eq_append]
    exact h.executed.concat hnew
  · intro m hm
    rcases mem_append.mp hm with hold | hm
    · exact h.disjoint m hold
    · rw [mem_singleton.mp hm]
      exact hs

structure SameLedger (s s' : State α) : Prop where
  execute : s'.executeCalls = s.executeCalls
  executed : s'.executedNodes = s.executedNodes
  skipped : s'.skippedNodes = s.skippedNodes
  failed : s'.failedNodes = s.failedNodes
  restored : s'.restoredNodes = s.restoredNodes

lemma RunOnce.of_same (h : RunOnce s) (hs : SameLedger s s') : RunOnce s' where
  execute := hs.execute ▸ h.execute
  executed := hs.executed ▸ h.executed
  skipped := hs.skipped ▸ h.skipped
  failed := hs.failed ▸ h.failed
  restored := hs.restored ▸ h.restored
  disjoint := hs.executed ▸ hs.skipped ▸ h.disjoint

lemma Attempt.runOnce (h : RunOnce s) (hc : Consistent P s) (hstarted : Started P s node)
    (hcall : visit.validate = .passed → node.id ∉ s.executeCalls)
    (hf : visit.validate = .passed → (∃ outputs, visit.execute = .finished outputs) →
      node.id ∉ s.failedNodes)
    (hattempt : Attempt P visit s node s' result) : RunOnce s' := by
  have hnew : node.id ∉ s.executedNodes := fun hm => hstarted.fresh (hc.executed _ hm)
  cases hattempt with
  | unprepared => exact h
  | raised | restoredEarly _ | announced _ _ _ | restored _ _ =>
    exact h.of_same ⟨rfl, rfl, rfl, rfl, rfl⟩
  | invalid _ _ _ => exact ((h.skip hnew).fail (n := node.id)).of_same ⟨rfl, rfl, rfl, rfl, rfl⟩
  | cancelled hvalidate => exact h.launch (hcall hvalidate)
  | recovered _ _ hvalidate _ _ =>
    exact ((h.launch (hcall hvalidate)).fail (n := node.id)).of_same ⟨rfl, rfl, rfl, rfl, rfl⟩
  | failed _ hvalidate _ _ _ =>
    exact (((h.launch (hcall hvalidate)).fail (n := node.id)).skip hnew).of_same ⟨rfl, rfl, rfl, rfl, rfl⟩
  | broke _ hvalidate _ _ =>
    exact ((h.launch (hcall hvalidate)).fail (n := node.id)).of_same ⟨rfl, rfl, rfl, rfl, rfl⟩
  | unfinished _ _ hvalidate =>
    exact (h.launch (hcall hvalidate)).of_same ⟨rfl, rfl, rfl, rfl, rfl⟩
  | executed outputs _ hvalidate hfinished =>
    have hs : node.id ∉ s.skippedNodes := fun hm =>
      (hc.skipped _ hm).elim (hf hvalidate ⟨outputs, hfinished⟩) hstarted.not_heldBack
    exact ((h.launch (hcall hvalidate)).finish hnew hs).of_same ⟨rfl, rfl, rfl, rfl, rfl⟩

lemma NodeStep.runOnce (h : RunOnce s) (hc : Consistent P s)
    (hcall : n ∉ s.completedNodeIds → visit.validate = .passed → n ∉ s.executeCalls)
    (hf : n ∉ s.completedNodeIds → visit.validate = .passed →
      (∃ outputs, visit.execute = .finished outputs) → n ∉ s.failedNodes)
    (hstep : NodeStep P visit s n s' result) : RunOnce s' := by
  cases hstep with
  | completed _ | unknown => exact h
  | hindered hfresh _ _ => exact h.skip fun hm => hfresh (hc.executed _ hm)
  | leftOut _ => exact h
  | attempted hid hstarted hattempt =>
    subst hid
    exact hattempt.runOnce h hc hstarted (hcall hstarted.fresh) (hf hstarted.fresh)

lemma NodeStep.frame {m : String} (hstep : NodeStep P visit s n s' result) (hm : m ≠ n) :
    (m ∈ s'.executeCalls → m ∈ s.executeCalls) ∧ (m ∈ s'.failedNodes → m ∈ s.failedNodes) := by
  have hcall : ∀ calls : List String, m ∈ calls ++ [n] → m ∈ calls := fun calls h =>
    (mem_append.mp h).resolve_right fun h => hm (mem_singleton.mp h)
  have hf : ∀ ids : List String, m ∈ appendOnce ids n → m ∈ ids := fun ids h =>
    (mem_appendOnce.mp h).resolve_right hm
  cases hstep with
  | completed _ | unknown | hindered _ _ _ | leftOut _ => exact ⟨id, id⟩
  | attempted hid _ hattempt =>
    subst hid
    cases hattempt with
    | unprepared | raised | restoredEarly _ | announced _ _ _ | restored _ _ => exact ⟨id, id⟩
    | invalid _ _ _ => exact ⟨id, hf _⟩
    | cancelled _ => exact ⟨hcall _, id⟩
    | recovered _ _ _ _ _ | failed _ _ _ _ _ | broke _ _ _ _ =>
      exact ⟨hcall s.executeCalls, hf s.failedNodes⟩
    | unfinished _ _ _ | executed _ _ _ _ =>
      exact ⟨hcall s.executeCalls, id⟩

lemma NodeStep.leaves (hstep : NodeStep P visit s n s' (.ok r)) (hstop : r.stopRequested = false)
    (hbreak : r.shouldBreak = false) (hfresh : n ∉ s'.completedNodeIds) :
    (n ∈ s'.executeCalls → n ∈ s.executeCalls ∨ P.Unhandled visit n) ∧
      (n ∈ s'.failedNodes → n ∈ s.failedNodes ∨ visit.Invalid ∨ P.Unhandled visit n) := by
  generalize hresult : (Except.ok r : Except Raised NodeResult) = result at hstep
  cases hstep with
  | completed _ | unknown | hindered _ _ _ | leftOut _ => exact ⟨.inl, .inl⟩
  | attempted hid _ hattempt =>
    subst hid
    cases hattempt with
    | unprepared | raised | restoredEarly _ | announced _ _ _ | restored _ _ =>
      exact ⟨.inl, .inl⟩
    | invalid _ _ hvalidate => exact ⟨.inl, fun _ => .inr (.inl hvalidate)⟩
    | cancelled _ =>
      cases hresult
      cases hstop
    | recovered _ _ _ _ _ => exact absurd mem_cons_self hfresh
    | failed _ hvalidate hfails hgate _ =>
      have hb : P.Unhandled visit _ := ⟨hvalidate, hfails, hgate⟩
      exact ⟨fun _ => .inr hb, fun _ => .inr (.inr hb)⟩
    | broke _ _ _ _ =>
      cases hresult
      cases hbreak
    | unfinished _ _ _ => cases hresult
    | executed _ _ _ _ => exact absurd mem_cons_self hfresh

section

variable (P : Processor α τ) (W : World α)

def Processor.prepassNodes : List String :=
  match P.task.sorted with
  | .ok order => P.prepassOrder W (.initial order)
  | .error _ => []

/-- A node that fails in the prepass fails in the main loop: after a failed validation it is not
executed there, after a failed execution not validated. -/
def Processor.StaysFailed (n : String) : Prop :=
  ((W.visit .prepass n).Invalid → (W.visit .main n).validate = .passed →
      ∀ outputs, (W.visit .main n).execute ≠ .finished outputs) ∧
    (P.Unhandled (W.visit .prepass n) n → (W.visit .main n).validate ≠ .passed)

structure Leftover (nodes : List String) (s : State α) (n : String) : Prop where
  call : n ∈ s.executeCalls → n ∈ nodes ∧ P.Unhandled (W.visit .prepass n) n
  failure : n ∈ s.failedNodes →
    n ∈ nodes ∧ ((W.visit .prepass n).Invalid ∨ P.Unhandled (W.visit .prepass n) n)

variable {P W} {s₀ : State α} {nodes done : List String} {m : String}

lemma Leftover.frame (h : Leftover P W nodes s m)
    (hstep : NodeStep P visit s n s' result) (hm : m ≠ n) : Leftover P W nodes s' m :=
  ⟨fun hcall => h.call ((hstep.frame hm).1 hcall), fun hf => h.failure ((hstep.frame hm).2 hf)⟩

lemma runOnce_of_restores {ids : List String} (hs₀ : Unstarted s₀) (hn : ids.Nodup)
    (h : Restores s₀ ids s) : RunOnce s := by
  refine ⟨?_, ?_, ?_, ?_, ?_, ?_⟩
  · rw [h.executeCalls, hs₀.executeCalls]
    exact nodup_nil
  · rw [h.executed, hs₀.executed]
    exact nodup_nil
  · rw [h.skipped, hs₀.skipped]
    exact nodup_nil
  · rw [h.failed, hs₀.failed]
    exact nodup_nil
  · rw [h.restored, hs₀.restored]
    exact hn
  · rw [h.executed, hs₀.executed]
    simp

lemma prepass_runOnce (h : RunOnce s) (hc : Consistent P s)
    (hnew : n ∉ s.executeCalls ∧ n ∉ s.failedNodes) (hstep : NodeStep P visit s n s' result) :
    RunOnce s' :=
  hstep.runOnce h hc (fun _ _ => hnew.1) fun _ _ _ => hnew.2

lemma main_runOnce (h : RunOnce s) (hc : Consistent P s) (hs : ∀ n ∈ nodes, P.StaysFailed W n)
    (hl : n ∉ s.completedNodeIds → Leftover P W nodes s n)
    (hstep : NodeStep P (W.visit .main n) s n s' result) : RunOnce s' := by
  refine hstep.runOnce h hc ?_ ?_
  · intro hfresh hvalidate hcall
    obtain ⟨hn, hb⟩ := (hl hfresh).call hcall
    exact (hs n hn).2 hb hvalidate
  · rintro hfresh hvalidate ⟨outputs, hfinished⟩ hf
    obtain ⟨hn, hi | hb⟩ := (hl hfresh).failure hf
    · exact (hs n hn).1 hi hvalidate outputs hfinished
    · exact (hs n hn).2 hb hvalidate

lemma runRule_once (hs₀ : Unstarted s₀) (hsta : ∀ n ∈ P.prepassOrder W s₀, P.StaysFailed W n) :
    RunRule P W s₀
      (fun done s _ => RunOnce s ∧ (∀ n, n ∉ done → n ∉ s.executeCalls ∧ n ∉ s.failedNodes) ∧
        ∀ n, n ∉ s.completedNodeIds → Leftover P W (P.prepassOrder W s₀) s n)
      (fun done s _ => RunOnce s ∧ ∀ n, n ∉ done → n ∉ s.completedNodeIds →
        Leftover P W (P.prepassOrder W s₀) s n)
      (fun s _ => RunOnce s) where
  frontier _ _ _ hn hr := runOnce_of_restores hs₀ hn hr
  plan ids s hn hr _ := by
    have hcalls : s.executeCalls = [] := hr.executeCalls.trans hs₀.executeCalls
    have hfai : s.failedNodes = [] := hr.failed.trans hs₀.failed
    refine ⟨runOnce_of_restores hs₀ hn hr, fun n _ => ?_, fun n _ => ⟨?_, ?_⟩⟩
    · simp [hcalls, hfai]
    · simp [hcalls]
    · simp [hfai]
  unordered _ _ h := h.1
  prepassRaised _ n _ _ _ _ ht h hstep :=
    prepass_runOnce h.1 ht.consistent (h.2.1 n ht.fresh) hstep
  prepassLeft _ n _ _ _ _ ht h hstep _ :=
    prepass_runOnce h.1 ht.consistent (h.2.1 n ht.fresh) hstep
  prepassNext done n s first s' r ht h hstep hstop hbreak := by
    have hnew := h.2.1 n ht.fresh
    refine ⟨prepass_runOnce h.1 ht.consistent hnew hstep, fun m hm => ?_, fun m hm => ?_⟩
    · rw [mem_append, not_or, mem_singleton] at hm
      obtain ⟨hcall, hfai⟩ := hstep.frame hm.2
      exact ⟨fun hc => (h.2.1 m hm.1).1 (hcall hc), fun hf => (h.2.1 m hm.1).2 (hfai hf)⟩
    · by_cases he : m = n
      · subst he
        obtain ⟨hcall, hfai⟩ := hstep.leaves hstop hbreak hm
        refine ⟨fun hc => ⟨ht.member, (hcall hc).resolve_left hnew.1⟩, fun hf => ⟨ht.member, ?_⟩⟩
        exact (hfai hf).resolve_left hnew.2
      · exact (h.2.2 m fun hc => hm (hstep.grows.completed hc)).frame hstep he
  turn _ _ _ h := ⟨h.1, fun n _ => h.2.2 n⟩
  stopped _ _ _ h := h.1
  mainRaised _ _ n _ _ _ _ ht h hstep :=
    main_runOnce h.1 ht.consistent hsta (h.2 n ht.fresh) hstep
  mainLeft _ _ n _ _ _ _ ht h hstep _ :=
    main_runOnce h.1 ht.consistent hsta (h.2 n ht.fresh) hstep
  mainNext order done n s flags s' r ht h hstep _ _ := by
    refine ⟨main_runOnce h.1 ht.consistent hsta (h.2 n ht.fresh) hstep, ?_⟩
    intro m hm hfresh
    rw [mem_append, not_or, mem_singleton] at hm
    exact (h.2 m hm.1 fun hc => hfresh (hstep.grows.completed hc)).frame hstep hm.2
  finish _ _ _ _ _ h := h.1

lemma runOnce_report {outcome : Except Raised Flags} (h : RunOnce s) :
    RunOnce (report s outcome).1 := by
  have hcall : ∀ call, RunOnce (s.call call) := fun call => h.of_same ⟨rfl, rfl, rfl, rfl, rfl⟩
  rw [report.eq_def]
  split
  · exact hcall _
  · exact hcall _
  · split
    · exact hcall _
    · split
      · split
        · exact h
        · exact hcall _
      · exact hcall _

theorem runOnce_of_staysFailed (P : Processor α τ) (W : World α)
    (hstays : ∀ n ∈ P.prepassNodes W, P.StaysFailed W n) : RunOnce (P.process W).1 := by
  have hempty : RunOnce ({} : State α) := by
    refine ⟨?_, ?_, ?_, ?_, ?_, ?_⟩ <;> simp
  rw [Processor.prepassNodes] at hstays
  rw [Processor.process]
  split
  · exact hempty.of_same ⟨rfl, rfl, rfl, rfl, rfl⟩
  · exact hempty.of_same ⟨rfl, rfl, rfl, rfl, rfl⟩
  · next first rest hsort =>
    rw [hsort] at hstays
    have hs₀ := unstarted_initial (α := α) (first :: rest)
    exact runOnce_report ((runRule_once hs₀ hstays).runTask hs₀ hsort)

def tablePipeline : Pipeline :=
  (Dict.empty.set "vars" ⟨"ReadVariablesFromDB", false, .empty⟩).set "read" ⟨"ReadTableFromDB",
    false, Dict.empty.set "input_variables" (.links [⟨"vars", "output_variables"⟩])⟩

def tableWorld (vars : Phase → NodeExecution Bool) : World Bool where
  caches _ := .empty
  restoredOutput _ _ := .none
  visit phase n := if n = "vars" then { execute := vars phase } else {}

theorem runOnce_tablePipeline :
    (sampleProcessor tablePipeline).prepassNodes (tableWorld fun _ => .finished fun _ => .none) =
        ["vars"] ∧
      RunOnce ((sampleProcessor tablePipeline).process
        (tableWorld fun _ => .finished fun _ => .none)).1 := by
  have hnodes : (sampleProcessor tablePipeline).prepassNodes
      (tableWorld fun _ => .finished fun _ => .none) = ["vars"] := by decide +kernel
  refine ⟨hnodes, runOnce_of_staysFailed _ _ ?_⟩
  rw [hnodes]
  intro n hn
  rw [mem_singleton.mp hn]
  refine ⟨?_, ?_⟩
  · rintro ⟨message, hinvalid⟩
    cases hinvalid
  · rintro ⟨_, ⟨message, hfailed | ⟨hcancelled, _⟩⟩, _⟩
    · cases hfailed
    · cases hcancelled

theorem not_runOnce_tablePipeline : ((sampleProcessor tablePipeline).process
        (tableWorld fun _ => .failed "connection refused")).1.executeCalls = ["vars", "vars"] ∧
      ((sampleProcessor tablePipeline).process (tableWorld fun phase =>
        if phase = .prepass then .failed "connection refused"
        else .finished fun _ => .none)).1.executedNodes = ["vars"] ∧
      ((sampleProcessor tablePipeline).process (tableWorld fun phase =>
        if phase = .prepass then .failed "connection refused"
        else .finished fun _ => .none)).1.skippedNodes = ["vars", "read"] ∧
      ¬ RunOnce ((sampleProcessor tablePipeline).process
        (tableWorld fun _ => .failed "connection refused")).1 := by
  have hcalls : ((sampleProcessor tablePipeline).process
      (tableWorld fun _ => .failed "connection refused")).1.executeCalls = ["vars", "vars"] := by
    decide +kernel
  refine ⟨hcalls, by decide +kernel, by decide +kernel, fun h => ?_⟩
  have hnodup := h.execute
  rw [hcalls] at hnodup
  simp at hnodup

end

end Dvt.Execution
