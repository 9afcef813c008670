import Dvt.Inputs.Building

/-! What building makes of each input of a node. -/

namespace Dvt.Inputs

open Library List
open Pipelines (ExpressionKind NodeInputLinkValue)

variable {α τ : Type}

section

variable (c : NodeContext α τ) (node : NodeClass α τ) (inputVariables projectVariables : Variables α)

def templateOf (entry : String × NodeInput α) : Option (String × String) :=
  match node.inputDefinitions.get? entry.1, entry.2 with
  | some inputDef, .unlinked input =>
    match input.parse with
    | .ok parsed => (deferredTemplate inputDef parsed).map fun text => (entry.1, text)
    | .error _ => none
  | _, _ => none

/-- The argument that an input gives when it is not rendered after the others. -/
def argument (entry : String × NodeInput α) : Except String (Option (Value α)) :=
  match c.node.inputDefinitions.get? entry.1, entry.2, templateOf c.node entry with
  | some inputDef, .links first rest, _ =>
    (buildLinked c entry.1 inputDef (first :: rest)).map some
  | some inputDef, .unlinked input, none =>
    (resolveNodeInputValue c.evaluator c.moment (some inputDef) inputVariables projectVariables false
      input).map some
  | _, _, _ => .ok none

variable {c node inputVariables projectVariables}
  {entry : String × NodeInput α} {template : String × String}

lemma templateOf_eq_some : templateOf node entry = some template ↔
    template.1 = entry.1 ∧ ∃ inputDef input, node.inputDefinitions.get? entry.1 = some inputDef ∧
      entry.2 = .unlinked input ∧ input.parse = .ok (some (.expr template.2 .template)) ∧
      inputDef.sqlTemplate := by
  obtain ⟨name, input⟩ := entry
  obtain ⟨name', text⟩ := template
  rw [templateOf]
  cases node.inputDefinitions.get? name with
  | none => simp
  | some inputDef =>
    cases input with
    | links first rest => simp
    | unlinked input =>
      rcases hparse : input.parse with error | _ | ⟨text', _ | _⟩ | value | link
      case ok.some.expr.template =>
        by_cases hsql : inputDef.sqlTemplate
        · simp [hparse, deferredTemplate, hsql, eq_comm (a := name)]
        · simp [hparse, deferredTemplate, hsql]
      all_goals
        simp [hparse, deferredTemplate]

lemma buildInput_eq_ok {state state' : Building α} :
    buildInput c .full inputVariables projectVariables state
        entry = .ok state' ↔
      ∃ value, argument c inputVariables projectVariables entry = .ok value ∧
        ⟨state.kwargs.put entry.1 value, state.deferred ++ (templateOf c.node entry).toList⟩ =
          state' := by
  obtain ⟨name, input⟩ := entry
  simp only [buildInput, argument, templateOf]
  cases c.node.inputDefinitions.get? name with
  | none => simp [Dict.put]
  | some inputDef =>
    cases input with
    | links first rest =>
      cases hvalue : buildLinked c name inputDef (first :: rest) with
      | error error => simp [hvalue, Except.map]
      | ok value => simp [hvalue, Except.map, Dict.put]
    | unlinked input =>
      cases hparse : input.parse with
      | error error => simp [hparse, resolveNodeInputValue, Except.map]
      | ok parsed =>
        cases htemplate : deferredTemplate inputDef parsed with
        | some text => simp [hparse, htemplate, Dict.put]
        | none =>
          cases hvalue : resolveNodeInputValue c.evaluator c.moment (some inputDef) inputVariables
              projectVariables false input with
          | error error => simp [hparse, htemplate, hvalue, wrapError, Except.map]
          | ok value => simp [hparse, htemplate, hvalue, wrapError, Except.map, Dict.put]

lemma renderDeferred_eq_ok {connection : Option (Value α)}
    {kwargs kwargs' : Dict String (Value α)} :
    renderDeferred c .full inputVariables projectVariables connection kwargs
        template = .ok kwargs' ↔
      ∃ sql, c.render c.moment connection template.2 inputVariables projectVariables = .ok sql ∧
        kwargs.put template.1 (some (.text sql)) = kwargs' := by
  rw [renderDeferred]
  cases c.render c.moment connection template.2 inputVariables projectVariables <;> simp [Dict.put]

end

section

variable {c : NodeContext α τ} {name : String}
  {inputs selected : Dict String (NodeInput α)} {projectVariables linked : Variables α}
  {state : Building α} {kwargs : Dict String (Value α)} {inputDef : InputDefinition τ}
  {input : UnlinkedInput α} {entry : String × NodeInput α} {template : String × String}

structure Built (c : NodeContext α τ) (selected : Dict String (NodeInput α))
    (projectVariables linked : Variables α) (state : Building α) (kwargs : Dict String (Value α)) : Prop where
  collected : collectLinkedVariables c selected = .ok linked
  built : selected.entries.foldlM (buildInput c .full
    (projectVariables.update linked) projectVariables) {} = .ok state
  rendered : state.deferred.foldlM (renderDeferred c .full
    (projectVariables.update linked) projectVariables (state.kwargs.get? "connection"))
      state.kwargs = .ok kwargs

lemma exists_built (hb : buildNodeKwargs c .full inputs projectVariables = .ok kwargs) :
    ∃ linked state, Built c (c.node.runtimeInputs inputs)
      projectVariables linked state kwargs := by
  rw [buildNodeKwargs] at hb
  split at hb
  case h_1 => cases hb
  case h_2 linked hc =>
    dsimp only at hb
    split at hb
    case h_1 => cases hb
    case h_2 state hbui => exact ⟨linked, state, hc, hbui, hb⟩

lemma deferred_of_build {inputVariables : Variables α} {entries : List (String × NodeInput α)}
    {state' : Building α} (h : entries.foldlM (buildInput c .full
      inputVariables projectVariables) state = .ok state') :
    state'.deferred = state.deferred ++ entries.filterMap (templateOf c.node) := by
  induction entries generalizing state with
  | nil =>
    cases h
    simp
  | cons entry entries ih =>
    obtain ⟨mid, hmid, hr⟩ := foldlM_cons_ok.mp h
    obtain ⟨value, -, rfl⟩ := buildInput_eq_ok.mp hmid
    rw [ih hr]
    cases htemplate : templateOf c.node entry <;> simp [htemplate]

lemma nodup_templates (selected : Dict String (NodeInput α)) :
    ((selected.entries.filterMap (templateOf c.node)).map Prod.fst).Nodup := by
  have hsub : ((selected.entries.filterMap (templateOf c.node)).map Prod.fst).Sublist
      selected.keys := by
    rw [Dict.keys]
    induction selected.entries with
    | nil => exact List.Sublist.refl _
    | cons entry entries ih =>
      cases htemplate : templateOf c.node entry with
      | none => simpa [htemplate] using ih.cons entry.1
      | some template =>
        rw [filterMap_cons_some htemplate, map_cons, (templateOf_eq_some.mp htemplate).1]
        exact ih.cons_cons entry.1
  exact hsub.nodup selected.nodup_keys

variable (h : Built c selected projectVariables linked state kwargs)

include h

lemma Built.deferred_eq : state.deferred = selected.entries.filterMap (templateOf c.node) :=
  deferred_of_build h.built

lemma Built.get?_state (name : String) : (name ∉ selected.keys → state.kwargs.get? name = none) ∧
    ∀ entry ∈ selected.entries, entry.1 = name → ∃ value,
      argument c (projectVariables.update linked) projectVariables entry = .ok value ∧
        state.kwargs.get? name = value := by
  obtain ⟨hout, hin⟩ := Dict.get?_foldlM_put Building.kwargs
    (argument c (projectVariables.update linked) projectVariables) (fun state entry state' hstep => by
      obtain ⟨value, hvalue, rfl⟩ := buildInput_eq_ok.mp hstep
      exact ⟨value, hvalue, rfl⟩) selected.nodup h.built name
  refine ⟨hout, fun entry hentry hname => ?_⟩
  obtain ⟨value, hvalue, hget⟩ := hin entry hentry hname
  exact ⟨value, hvalue, hget.trans (by cases value <;> rfl)⟩

lemma Built.get?_rendered (name : String) :
    (name ∉ (selected.entries.filterMap (templateOf c.node)).map Prod.fst →
      kwargs.get? name = state.kwargs.get? name) ∧
    ∀ template ∈ selected.entries.filterMap (templateOf c.node), template.1 = name →
      ∃ sql, c.render c.moment (state.kwargs.get? "connection") template.2
        (projectVariables.update linked) projectVariables = .ok sql ∧
          kwargs.get? name = some (.text sql) := by
  have hfold := h.rendered
  rw [h.deferred_eq] at hfold
  obtain ⟨hout, hin⟩ := Dict.get?_foldlM_put id (fun template => (c.render c.moment
    (state.kwargs.get? "connection") template.2 (projectVariables.update linked)
    projectVariables).map (some ∘ .text)) (fun kwargs template kwargs' hstep => by
      obtain ⟨sql, hsql, rfl⟩ := renderDeferred_eq_ok.mp hstep
      exact ⟨_, map_eq_ok.mpr ⟨sql, hsql, rfl⟩, rfl⟩) (nodup_templates selected) hfold name
  refine ⟨hout, fun template htemplate hname => ?_⟩
  obtain ⟨value, hvalue, hget⟩ := hin template htemplate hname
  obtain ⟨sql, hsql, rfl⟩ := map_eq_ok.mp hvalue
  exact ⟨sql, hsql, hget⟩

lemma Built.get?_template (hentry : entry ∈ selected.entries)
    (htemplate : templateOf c.node entry = some template) :
    state.kwargs.get? entry.1 = none ∧ ∃ sql, c.render c.moment (state.kwargs.get? "connection")
      template.2 (projectVariables.update linked) projectVariables = .ok sql ∧
        kwargs.get? entry.1 = some (.text sql) := by
  obtain ⟨value, hvalue, hget⟩ := (h.get?_state entry.1).2 entry hentry rfl
  obtain ⟨hname, inputDef, input, hdef, hi, -⟩ := templateOf_eq_some.mp htemplate
  refine ⟨?_, (h.get?_rendered entry.1).2 template
    (mem_filterMap.mpr ⟨entry, hentry, htemplate⟩) hname⟩
  rw [argument, hdef, hi, htemplate] at hvalue
  cases hvalue
  exact hget

lemma Built.get?_kwargs (hname : ∀ entry ∈ selected.entries, entry.1 = name →
    templateOf c.node entry = none) : kwargs.get? name = state.kwargs.get? name := by
  refine (h.get?_rendered name).1 fun hmem => ?_
  obtain ⟨template, ht, rfl⟩ := mem_map.mp hmem
  obtain ⟨entry, hentry, htemplate⟩ := mem_filterMap.mp ht
  have hnone := hname entry hentry (templateOf_eq_some.mp htemplate).1.symm
  exact absurd (htemplate.symm.trans hnone) nofun

/-- An input that is not rendered later is an argument at once. -/
lemma Built.get?_argument (hentry : entry ∈ selected.entries)
    (htemplate : templateOf c.node entry = none) :
    ∃ value, argument c (projectVariables.update linked)
      projectVariables entry = .ok value ∧ state.kwargs.get? entry.1 = value ∧
        kwargs.get? entry.1 = value := by
  obtain ⟨value, hvalue, hget⟩ := (h.get?_state entry.1).2 entry hentry rfl
  refine ⟨value, hvalue, hget, (h.get?_kwargs fun other hother hname => ?_).trans hget⟩
  obtain rfl : other = entry := inj_on_of_nodup_map selected.nodup hother hentry hname
  exact htemplate

end

end Dvt.Inputs
