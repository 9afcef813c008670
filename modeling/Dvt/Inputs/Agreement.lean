import Dvt.Inputs.Dependence

/-! When the constants of a fingerprint are the arguments of the node. -/

namespace Dvt.Inputs

open Library List

variable {α τ : Type}

section

variable (c : NodeContext α τ) (node : NodeClass α τ) (later : ℕ) (inputs : Dict String (NodeInput α))
  (projectVariables : Variables α)

def Resolved (name : String) (input : UnlinkedInput α) : Prop :=
  (name, .unlinked input) ∈ (node.runtimeInputs inputs).entries ∧
    node.inputDefinitions.get? name ≠ none ∧ templateOf node (name, .unlinked input) = none

/-- The scope of the first evaluation: the project variables under the linked ones. -/
def ownVariables : Variables α :=
  match collectLinkedVariables c (c.node.runtimeInputs inputs) with
  | .ok linked => projectVariables.update linked
  | .error _ => projectVariables

def givenVariables : Option (Value α) :=
  ((c.node.runtimeInputs inputs).get? "input_variables").bind fun input =>
    (argument c (ownVariables c inputs projectVariables) projectVariables
      ("input_variables", input)).toOption.join

/-- The scope of the second evaluation: of the linked variables, those that `input_variables` has. -/
def keptVariables : Variables α :=
  mergeInputVariables projectVariables
    (givenVariables c inputs projectVariables)

/-- An expression that building evaluates has the same value later, without the variables that
`input_variables` does not have and without the namespace `project_variables`; every other unlinked
input has some value then. -/
structure Agreeing : Prop where
  steady : ∀ name input inputDef text kind, Resolved c.node inputs name input →
    c.node.inputDefinitions.get? name = some inputDef → input.parse = .ok (some (.expr text kind)) →
    resolveExpression c.evaluator later (some inputDef)
        (keptVariables c inputs projectVariables) Dict.empty false
        text kind =
      resolveExpression c.evaluator c.moment (some inputDef)
        (ownVariables c inputs projectVariables) projectVariables false text kind
  readable : ∀ name input, (name, .unlinked input) ∈ inputs.entries →
    ¬ Resolved c.node inputs name input → ∃ value, resolveConstant c.evaluator c.node later .full
      (keptVariables c inputs projectVariables) name input = .ok value

end

variable {c : NodeContext α τ} {name : String} {later : ℕ} {inputs : Dict String (NodeInput α)}
  {projectVariables linked : Variables α} {state : Building α} {kwargs : Dict String (Value α)}
  {input : UnlinkedInput α}

lemma resolveNodeInputValue_congr {inputDef : Option (InputDefinition τ)}
    {inputVariables inputVariables' projectVariables' : Variables α}
    (h : ∀ text kind, input.parse = .ok (some (.expr text kind)) →
      resolveExpression c.evaluator later inputDef inputVariables' projectVariables' false text kind =
        resolveExpression c.evaluator c.moment inputDef inputVariables projectVariables false text kind) :
    resolveNodeInputValue c.evaluator later inputDef inputVariables' projectVariables' false input =
      resolveNodeInputValue c.evaluator c.moment inputDef inputVariables projectVariables false
        input := by
  rw [resolveNodeInputValue, resolveNodeInputValue]
  cases hparse : input.parse with
  | error error => rfl
  | ok parsed =>
    obtain _ | ⟨text, kind⟩ | _ | _ := parsed
    · rfl
    · exact h text kind hparse
    · rfl
    · rfl

section

variable (h : Built c (c.node.runtimeInputs inputs) projectVariables linked state kwargs)

include h

lemma Built.ownVariables_eq :
    ownVariables c inputs projectVariables = projectVariables.update linked := by
  rw [ownVariables, h.collected]

lemma Built.resolves (hres : Resolved c.node inputs name input) :
    ∃ value, kwargs.get? name = some value ∧
      resolveNodeInputValue c.evaluator c.moment (c.node.inputDefinitions.get? name)
        (ownVariables c inputs projectVariables) projectVariables false input = .ok value := by
  obtain ⟨hentry, hdef, htemplate⟩ := hres
  obtain ⟨inputDef, hdef⟩ := Option.ne_none_iff_exists'.mp hdef
  obtain ⟨_, hvalue, -, hget⟩ := h.get?_argument hentry htemplate
  rw [argument, hdef, htemplate] at hvalue
  obtain ⟨value, hresolve, rfl⟩ := map_eq_ok.mp hvalue
  rw [h.ownVariables_eq, hdef]
  exact ⟨value, hget, hresolve⟩

lemma Built.resolves_later (hagree : Agreeing c later inputs projectVariables)
    (hres : Resolved c.node inputs name input) :
    ∃ value, kwargs.get? name = some value ∧ resolveConstant c.evaluator c.node later .full
      (keptVariables c inputs projectVariables) name input = .ok value := by
  obtain ⟨value, hkwargs, hvalue⟩ := h.resolves hres
  obtain ⟨inputDef, hdef⟩ := Option.ne_none_iff_exists'.mp hres.2.1
  refine ⟨value, hkwargs, ?_⟩
  rw [← hvalue, resolveConstant, hdef]
  exact resolveNodeInputValue_congr fun text kind hparse =>
    hagree.steady name input inputDef text kind hres hdef hparse

lemma Built.runtimeVariablesMap_eq : runtimeVariablesMap projectVariables kwargs =
    keptVariables c inputs projectVariables := by
  rw [runtimeVariablesMap, keptVariables, givenVariables, h.ownVariables_eq]
  cases hget : (c.node.runtimeInputs inputs).get? "input_variables" with
  | none =>
    have hkey := Dict.get?_eq_none.mp hget
    rw [h.get?_kwargs, (h.get?_state _).1 hkey]
    · rfl
    · exact fun entry hentry hname => absurd (hname ▸ mem_map_of_mem hentry) hkey
  | some input =>
    have hentry := Dict.get?_eq_some.mp hget
    rw [Option.bind_some]
    cases htemplate : templateOf c.node ("input_variables", input) with
    | none =>
      obtain ⟨value, hvalue, -, hkwargs⟩ := h.get?_argument hentry htemplate
      rw [hkwargs, hvalue]
      rfl
    | some template =>
      -- a rendered template is a text, which passes no variables on
      obtain ⟨hstate, sql, -, hkwargs⟩ := h.get?_template hentry htemplate
      obtain ⟨value, hvalue, hs⟩ := (h.get?_state _).2 _ hentry rfl
      rw [hkwargs, hvalue, ← hs, hstate]
      rfl

end

theorem gathered_constants_iff (later : ℕ) (hashes : OutputHashes)
    (hbuild : buildNodeKwargs c .full inputs projectVariables = .ok kwargs) :
    (∃ parentHashes constants, gatherParentHashesAndConstants c.evaluator c.nodeId c.node later .full
        hashes inputs (runtimeVariablesMap projectVariables kwargs) =
          .ok (parentHashes, constants) ∧
      ∀ name input, Resolved c.node inputs name input →
        ∃ value, kwargs.get? name = some value ∧ constants.get? name = some value) ↔
      Agreeing c later inputs projectVariables := by
  obtain ⟨linked, state, hbuilt⟩ := exists_built hbuild
  rw [hbuilt.runtimeVariablesMap_eq]
  constructor
  · rintro ⟨parentHashes, constants, hgather, hsame⟩
    refine ⟨fun name input inputDef text kind hres hdef hparse => ?_, fun name input hmem _ => ?_⟩
    · obtain ⟨value, hkwargs, hfirst⟩ := hbuilt.resolves hres
      obtain ⟨value', hsecond, hconstant⟩ :=
        exists_constant hgather (c.node.runtimeInputs_subset inputs hres.1)
      obtain ⟨_, hkwargs', hconstant'⟩ := hsame name input hres
      obtain rfl := Option.some.inj (hkwargs.symm.trans hkwargs')
      obtain rfl := Option.some.inj (hconstant'.symm.trans hconstant)
      rw [resolveConstant, hdef, resolveNodeInputValue, hparse] at hsecond
      rw [hdef, resolveNodeInputValue, hparse] at hfirst
      exact hsecond.trans hfirst.symm
    · obtain ⟨value, hvalue, -⟩ := exists_constant hgather hmem
      exact ⟨value, hvalue⟩
  · intro hagree
    obtain ⟨parentHashes, constants, hgather⟩ := gather_of_resolves c.nodeId hashes
      fun name input hmem => by
        by_cases hres : Resolved c.node inputs name input
        · obtain ⟨value, -, hvalue⟩ := hbuilt.resolves_later hagree hres
          exact ⟨value, hvalue⟩
        · exact hagree.readable name input hmem hres
    refine ⟨parentHashes, constants, hgather, fun name input hres => ?_⟩
    obtain ⟨value, hkwargs, hvalue⟩ := hbuilt.resolves_later hagree hres
    obtain ⟨value', hvalue', hconstant⟩ :=
      exists_constant hgather (c.node.runtimeInputs_subset inputs hres.1)
    obtain rfl := Except.ok.inj (hvalue.symm.trans hvalue')
    exact ⟨value, hkwargs, hconstant⟩

/-- Every text but one stands for `region if region is defined else project_variables.region`. -/
def regionEvaluator : Evaluator Empty Unit where
  isIdentifier _ := true
  defaultPolicy := { name := "default" }
  run _ _ _ text context :=
    match text, context.get? "region", context.get? "project_variables" with
    | "project_variables.region", _, some (.mapping names) | _, none, some (.mapping names) =>
      match names.get? "region" with
      | some value => .ok value
      | none => .error ("'src.node_dsl.input_expressions.runtime.ImmutableProjectVariables " ++
        "object' has no attribute 'region'")
    | _, some (.value value), _ => .ok value
    | _, _, _ => .error "'project_variables' is hidden"
  coerce value _ _ := .ok value

lemma tableInputs_subset : ∀ inputs : Dict String (NodeInput Empty),
    (id inputs).entries ⊆ inputs.entries := entries_id_subset

def tableClass : NodeClass Empty Unit where
  name := "ReadTable"
  inputDefinitions := Dict.empty.set "table" { type := () }
  runtimeInputs_subset := tableInputs_subset

def tableInputs (text : String) : Dict String (NodeInput Empty) :=
  Dict.empty.set "table" (.unlinked (.expression text .single))

def regionVariables : Variables Empty := Dict.empty.set "region" (.text "eu")

def regionDefault : String := "region if region is defined else project_variables.region"

def readContext : NodeContext Empty Unit where
  evaluator := regionEvaluator
  render _ _ _ _ _ := .error ""
  nodeId := "read"
  node := tableClass
  outputs _ _ := none
  moment := 0

lemma agreeing_region : Agreeing readContext 1 (tableInputs regionDefault) regionVariables where
  steady := by
    intro name input inputDef text kind hres hdef hparse
    cases mem_singleton.mp hres.1
    cases hparse
    rfl
  readable := by
    intro name input hmem hres
    cases mem_singleton.mp hmem
    exact absurd ⟨mem_singleton_self _, nofun, rfl⟩ hres

theorem gathered_constants_region :
    ∃ kwargs, buildNodeKwargs readContext .full (tableInputs regionDefault) regionVariables = .ok kwargs ∧
      ∃ parentHashes constants, gatherParentHashesAndConstants regionEvaluator "read" tableClass 1
          .full (fun _ _ => "") (tableInputs regionDefault)
          (runtimeVariablesMap regionVariables kwargs) = .ok (parentHashes, constants) ∧
        ∀ name input, Resolved tableClass (tableInputs regionDefault) name input →
          ∃ value, kwargs.get? name = some value ∧ constants.get? name = some value :=
  ⟨_, rfl, (gathered_constants_iff 1 (fun _ _ => "") rfl).mpr agreeing_region⟩

theorem gather_fails_on_project_variables :
    ∃ kwargs, buildNodeKwargs readContext .full (tableInputs "project_variables.region") regionVariables =
        .ok kwargs ∧
      kwargs.get? "table" = some (.text "eu") ∧
      gatherParentHashesAndConstants regionEvaluator "read" tableClass 1 .full (fun _ _ => "")
          (tableInputs "project_variables.region") (runtimeVariablesMap regionVariables kwargs) =
        .error ("Node read: 'src.node_dsl.input_expressions.runtime.ImmutableProjectVariables " ++
          "object' has no attribute 'region'") :=
  ⟨_, rfl, rfl, rfl⟩

end Dvt.Inputs
