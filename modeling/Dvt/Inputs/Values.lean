import Dvt.Pipelines.Graph
import Mathlib.Data.List.Infix

/-! The values of node inputs: constants, expressions and links. -/

namespace Dvt.Inputs

open Library
open Pipelines (ExpressionKind NodeInputLinkValue)

/-- `α` are the leaf objects that are no texts. -/
inductive Value (α : Type)
  | none
  | ellipsis
  | text (s : String)
  | atom (a : α)
  | list (xs : List (Value α))
  | tuple (xs : List (Value α))
  | set (xs : List (Value α))
  | dict (entries : List (Value α × Value α))
  | variable (name : String) (value : Value α)
  | unresolved (reason : String)

inductive UnlinkedInput (α : Type)
  | expression (text : String) (kind : ExpressionKind)
  | constant (value : Value α)

/-- An input as `NodeData` keeps it; a list of links is not empty. -/
inductive NodeInput (α : Type)
  | unlinked (input : UnlinkedInput α)
  | links (first : NodeInputLinkValue) (rest : List NodeInputLinkValue)

inductive NodeInputValue (α : Type)
  | expr (text : String) (kind : ExpressionKind)
  | const (value : Value α)
  | link (link : NodeInputLinkValue)

abbrev Variables (α : Type) := Dict String (Value α)

variable {α τ : Type}

def NodeInput.linkValues : NodeInput α → List NodeInputLinkValue
  | .links first rest => first :: rest
  | _ => []

def Value.lookup (key : String) : List (Value α × Value α) → Option (Value α)
  | [] => Option.none
  | (.text k, v) :: entries => if k = key then some v else lookup key entries
  | _ :: entries => lookup key entries

def parseNodeInputValue : Value α → Except String (Option (NodeInputValue α))
  | .dict entries =>
    match Value.lookup "__dvt_type" entries with
    | Option.none | some .none => .ok Option.none
    | some (.text "expr") =>
      match Value.lookup "value" entries, Value.lookup "expression_kind" entries with
      | some (.text text), some (.text "single") => .ok (some (.expr text .single))
      | some (.text text), some (.text "template") => .ok (some (.expr text .template))
      | _, _ => .error "validation error for NodeInputExpressionValue"
    | some (.text "const") =>
      match Value.lookup "value" entries with
      | some value => .ok (some (.const value))
      | Option.none => .error "validation error for NodeInputConstantValue"
    | some (.text "link") =>
      match Value.lookup "node_id" entries, Value.lookup "output_name" entries with
      | some (.text nodeId), some (.text outputName) => .ok (some (.link ⟨nodeId, outputName⟩))
      | _, _ => .error "validation error for NodeInputLinkValue"
    | some (.text marker) => .error s!"Unknown dvt_type '{marker}'"
    | some _ => .error "Unknown dvt_type"
  | _ => .ok Option.none

def UnlinkedInput.raw : UnlinkedInput α → Value α
  | .expression text _ => .text text
  | .constant value => value

def UnlinkedInput.parse : UnlinkedInput α → Except String (Option (NodeInputValue α))
  | .expression text kind => .ok (some (.expr text kind))
  | .constant value => parseNodeInputValue value

structure ExpressionPolicy where
  name : String
  allowedFilters : List String := []
  allowedGlobals : List String := []
  allowedTests : List String := []
  allowStatements : Bool := false
  allowComments : Bool := true

inductive Binding (α : Type)
  | mapping (names : Variables α)
  | value (value : Value α)

abbrev Context (α : Type) := Dict String (Binding α)

/-- The Jinja environment: `run` evaluates a text at some moment, `coerce` fits a result to the type
of the input. -/
structure Evaluator (α τ : Type) where
  isIdentifier : String → Bool
  defaultPolicy : ExpressionPolicy
  run : ℕ → ExpressionPolicy → ExpressionKind → String → Context α → Except String (Value α)
  coerce : Value α → Option τ → Bool → Except String (Value α)

def reservedVariableNames : List String :=
  ["input_variables", "len", "true", "false", "none", "True", "False", "None"]

def keywords : List String :=
  ["False", "None", "True", "and", "as", "assert", "async", "await", "break", "class", "continue",
    "def", "del", "elif", "else", "except", "finally", "for", "from", "global", "if", "import", "in",
    "is", "lambda", "nonlocal", "not", "or", "pass", "raise", "return", "try", "while", "with",
    "yield"]

def isSafeExpressionVariableName (evaluator : Evaluator α τ) (name : String) : Bool :=
  evaluator.isIdentifier name ∧ name ∉ keywords ∧ name ∉ reservedVariableNames

def ensureTemplateSyntaxAllowed (expression : String) (policy : ExpressionPolicy) :
    Except String Unit :=
  if policy.allowStatements = false ∧ ['{', '%'] <:+: expression.toList then
    .error "Expression templates do not allow statement blocks."
  else if policy.allowComments = false ∧ ['{', '#'] <:+: expression.toList then
    .error "Expression templates do not allow comments."
  else .ok ()

def unwrapVariable : Value α → Value α
  | .dict entries =>
    match Value.lookup "name" entries, Value.lookup "value" entries with
    | some _, some value => value
    | _, _ => .dict entries
  | .variable _ value => value
  | value => value

def bindVariables (evaluator : Evaluator α τ) (hidden : String) (target : Variables α)
    (context : Context α) : Context α :=
  target.entries.foldl (fun context entry =>
    if entry.1 ≠ hidden ∧ isSafeExpressionVariableName evaluator entry.1 then
      context.set entry.1 (.value entry.2)
    else context) context

def expressionContext (evaluator : Evaluator α τ) (inputVariables projectVariables : Variables α) :
    Context α :=
  let namespaces : Context α := (Dict.empty.set "input_variables" (.mapping inputVariables)).set
    "project_variables" (.mapping projectVariables)
  bindVariables evaluator "project_variables" inputVariables
    (bindVariables evaluator "input_variables" projectVariables namespaces)

def evaluateInputExpression (evaluator : Evaluator α τ) (moment : ℕ) (expression : String)
    (kind : ExpressionKind) (policy : Option ExpressionPolicy)
    (inputVariables projectVariables : Variables α) : Except String (Value α) :=
  let policy := policy.getD evaluator.defaultPolicy
  let context := expressionContext evaluator inputVariables projectVariables
  match kind with
  | .single => evaluator.run moment policy .single expression context
  | .template =>
    match ensureTemplateSyntaxAllowed expression policy with
    | .error error => .error error
    | .ok () => evaluator.run moment policy .template expression context

structure InputDefinition (τ : Type) where
  type : τ
  isVariable : Bool := false
  isSignal : Bool := false
  isColumn : Bool := false
  allowMultipleConnections : Bool := false
  isListType : Bool := false
  allowExpressions : Bool := true
  expressionPolicy : Option ExpressionPolicy := none
  sqlTemplate : Bool := false

section

variable (evaluator : Evaluator α τ) (moment : ℕ) (inputDef : Option (InputDefinition τ))
  (inputVariables projectVariables : Variables α) (allowUnresolved : Bool)

def evaluateAndCoerce (text : String) (kind : ExpressionKind) : Except String (Value α) :=
  match evaluateInputExpression evaluator moment text kind
      (inputDef.bind InputDefinition.expressionPolicy) inputVariables projectVariables with
  | .error error => .error error
  | .ok value => evaluator.coerce value (inputDef.map InputDefinition.type)
      ((inputDef.map InputDefinition.isListType).getD false)

def resolveExpression (text : String) (kind : ExpressionKind) : Except String (Value α) :=
  if (inputDef.map InputDefinition.allowExpressions).getD true = false then
    .error "Expressions are not enabled for this input."
  else
    match evaluateAndCoerce evaluator moment inputDef (inputVariables.mapValues unwrapVariable)
        (projectVariables.mapValues unwrapVariable) text kind with
    | .error error => if allowUnresolved then .ok (.unresolved error) else .error error
    | .ok value => .ok value

def resolveNodeInputValue (input : UnlinkedInput α) : Except String (Value α) :=
  match input.parse with
  | .error error => .error error
  | .ok (some (.const inner)) => .ok inner
  | .ok (some (.expr text kind)) =>
    resolveExpression evaluator moment inputDef inputVariables projectVariables allowUnresolved
      text kind
  | .ok _ => .ok input.raw

end

end Dvt.Inputs
