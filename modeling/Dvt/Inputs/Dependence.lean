import Dvt.Inputs.Arguments

/-! What the arguments of a node owe to the project variables. -/

namespace Dvt.Inputs

open Library List
open Pipelines (ExpressionKind NodeInputLinkValue)

variable {α τ : Type}

section

variable (c : NodeContext α τ)

def valueOf (connection : Option (Value α)) (linked : Variables α) (inputDef : InputDefinition τ)
    (text : String) (kind : ExpressionKind) (projectVariables : Variables α) :
    Except String (Value α) :=
  if kind = .template ∧ inputDef.sqlTemplate then
    (c.render c.moment connection text (projectVariables.update linked) projectVariables).map .text
  else resolveExpression c.evaluator c.moment (some inputDef) (projectVariables.update linked)
    projectVariables false text kind

variable (selected : Dict String (NodeInput α))

def SameValues (connection : Option (Value α)) (linked first second : Variables α) : Prop :=
  ∀ name input inputDef text kind, (name, .unlinked input) ∈ selected.entries →
    c.node.inputDefinitions.get? name = some inputDef → input.parse = .ok (some (.expr text kind)) →
    valueOf c connection linked inputDef text kind second =
      valueOf c connection linked inputDef text kind first

variable {c selected} {name : String} {connection : Option (Value α)}
  {linked first second : Variables α}
  {state state' : Building α} {kwargs kwargs' : Dict String (Value α)} {input : UnlinkedInput α}
  {inputDef : InputDefinition τ} {text : String} {kind : ExpressionKind}

lemma templateOf_expr (hdef : c.node.inputDefinitions.get? name = some inputDef)
    (hparse : input.parse = .ok (some (.expr text kind))) :
    templateOf c.node (name, .unlinked input) =
      if kind = .template ∧ inputDef.sqlTemplate then some (name, text) else none := by
  rw [templateOf, hdef]
  dsimp only
  rw [hparse]
  by_cases hsql : inputDef.sqlTemplate
  · cases kind <;> simp [deferredTemplate, hsql]
  · cases kind <;> simp [deferredTemplate, hsql]

lemma argument_links {inputVariables projectVariables : Variables α} {head : NodeInputLinkValue}
    {rest : List NodeInputLinkValue} :
    argument c inputVariables projectVariables (name, .links head rest) =
      argument c (first.update linked) first (name, .links head rest) := by
  rw [argument, argument]
  cases c.node.inputDefinitions.get? name <;> rfl

lemma argument_congr (hs : SameValues c selected connection linked first second)
    {entry : String × NodeInput α} (hentry : entry ∈ selected.entries) :
    argument c (second.update linked) second entry =
      argument c (first.update linked) first entry := by
  obtain ⟨name, input | ⟨head, rest⟩⟩ := entry
  · rw [argument, argument]
    cases hdef : c.node.inputDefinitions.get? name with
    | none => rfl
    | some inputDef =>
      cases htemplate : templateOf c.node (name, .unlinked input) with
      | some template => rfl
      | none =>
        refine congrArg (Except.map some) ?_
        rw [resolveNodeInputValue, resolveNodeInputValue]
        rcases hparse : input.parse with error | _ | ⟨text, kind⟩ | value | link
        case ok.some.expr =>
          have hvalue := hs name input inputDef text kind hentry hdef hparse
          have hplain : ¬ (kind = .template ∧ inputDef.sqlTemplate) := by
            intro hsql
            rw [templateOf_expr hdef hparse, if_pos hsql] at htemplate
            cases htemplate
          rw [valueOf, valueOf, if_neg hplain, if_neg hplain] at hvalue
          exact hvalue
        all_goals
          rfl
  · exact argument_links

section

variable (h : Built c selected first linked state kwargs)
  (h' : Built c selected second linked state' kwargs')
  (ha : ∀ name input, (name, .unlinked input) ∈ selected.entries →
    kwargs'.get? name = kwargs.get? name)

include h h' ha

lemma Built.get?_state_eq (name : String) : state'.kwargs.get? name = state.kwargs.get? name := by
  by_cases hkey : name ∈ selected.keys
  · obtain ⟨input, hget⟩ := Dict.mem_keys.mp hkey
    have hentry := Dict.get?_eq_some.mp hget
    cases input with
    | links head rest =>
      obtain ⟨value, hvalue, hget⟩ := (h.get?_state name).2 _ hentry rfl
      obtain ⟨value', hvalue', hget'⟩ := (h'.get?_state name).2 _ hentry rfl
      rw [argument_links] at hvalue'
      rw [hget, hget', Except.ok.inj (hvalue'.symm.trans hvalue)]
    | unlinked input =>
      cases htemplate : templateOf c.node (name, .unlinked input) with
      | some template =>
        rw [(h.get?_template hentry htemplate).1, (h'.get?_template hentry htemplate).1]
      | none =>
        obtain ⟨value, -, hget, hk⟩ := h.get?_argument hentry htemplate
        obtain ⟨value', -, hget', hk'⟩ := h'.get?_argument hentry htemplate
        rw [hget, hget', ← hk, ← hk', ha name input hentry]
  · rw [(h.get?_state name).1 hkey, (h'.get?_state name).1 hkey]

lemma Built.sameValues :
    SameValues c selected (state.kwargs.get? "connection") linked first
      second := by
  intro name input inputDef text kind hentry hdef hparse
  have hname := ha name input hentry
  have htemplate := templateOf_expr hdef hparse
  rw [valueOf, valueOf]
  split at htemplate
  · next hsql =>
    obtain ⟨-, sql, hr, hget⟩ := h.get?_template hentry htemplate
    obtain ⟨-, sql', hr', hget'⟩ := h'.get?_template hentry htemplate
    rw [h.get?_state_eq h' ha] at hr'
    rw [hget, hget'] at hname
    cases hname
    rw [if_pos hsql, if_pos hsql, hr, hr']
  · next hsql =>
    obtain ⟨value, hvalue, -, hget⟩ := h.get?_argument hentry htemplate
    obtain ⟨value', hvalue', -, hget'⟩ := h'.get?_argument hentry htemplate
    rw [hget, hget'] at hname
    rw [argument, hdef, htemplate] at hvalue hvalue'
    obtain ⟨resolved, hr, rfl⟩ := map_eq_ok.mp hvalue
    obtain ⟨resolved', hr', rfl⟩ := map_eq_ok.mp hvalue'
    cases hname
    rw [resolveNodeInputValue, hparse] at hr hr'
    rw [if_neg hsql, if_neg hsql]
    exact hr'.trans hr.symm

end

lemma Built.of_sameValues (h : Built c selected first linked state kwargs)
    (hs : SameValues c selected (state.kwargs.get? "connection") linked first second) :
    Built c selected second linked state kwargs := by
  refine ⟨h.collected, foldlM_ok_imp ?_ h.built, foldlM_ok_imp ?_ h.rendered⟩
  · intro mid entry hentry mid' hstep
    rw [buildInput_eq_ok] at hstep ⊢
    rw [argument_congr hs hentry]
    exact hstep
  · intro mid template hmem mid' hstep
    rw [h.deferred_eq] at hmem
    obtain ⟨entry, hentry, htemplate⟩ := mem_filterMap.mp hmem
    obtain ⟨-, inputDef, input, hdef, hi, hparse, hsql⟩ := templateOf_eq_some.mp htemplate
    rw [renderDeferred_eq_ok] at hstep ⊢
    obtain ⟨sql, hrender, hmid⟩ := hstep
    have hvalue := hs entry.1 input inputDef _ .template (hi ▸ hentry) hdef hparse
    rw [valueOf, valueOf, if_pos ⟨rfl, hsql⟩, if_pos ⟨rfl, hsql⟩, hrender] at hvalue
    obtain ⟨sql', hrender', heq⟩ := map_eq_ok.mp hvalue
    cases heq
    exact ⟨sql, hrender', hmid⟩

variable {inputs : Dict String (NodeInput α)}
  (h : Built c (c.node.runtimeInputs inputs) first linked state kwargs)

include h

lemma Built.buildNodeKwargs_eq : buildNodeKwargs c .full inputs first = .ok kwargs := by
  rw [buildNodeKwargs]
  rw [h.collected]
  dsimp only
  rw [h.built]
  exact h.rendered

theorem kwargs_agree_iff :
    (∃ kwargs', buildNodeKwargs c .full inputs second = .ok kwargs' ∧
      ∀ name input, (name, .unlinked input) ∈ (c.node.runtimeInputs inputs).entries →
        kwargs'.get? name = kwargs.get? name) ↔
      SameValues c (c.node.runtimeInputs inputs)
        (state.kwargs.get? "connection") linked first second := by
  constructor
  · rintro ⟨kwargs', hb, ha⟩
    obtain ⟨linked', state', h'⟩ := exists_built hb
    obtain rfl := Except.ok.inj (h.collected.symm.trans h'.collected)
    exact h.sameValues h' ha
  · intro hs
    exact ⟨kwargs, (h.of_sameValues hs).buildNodeKwargs_eq, fun _ _ _ => rfl⟩

end

end Dvt.Inputs
