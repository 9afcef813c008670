import Mathlib.Data.Option.Basic
import Mathlib.Data.List.Basic

/-! Names, scopes and three-valued conditions of SQL; DELETE with a correlated EXISTS. -/

namespace Dvt.Library.Sql

/-- The truth of a condition; `none` is UNKNOWN. -/
abbrev Truth := Option Bool

def Truth.and : Truth → Truth → Truth
  | some false, _ => some false
  | _, some false => some false
  | some true, b => b
  | none, some true => none
  | none, none => none

def Truth.or : Truth → Truth → Truth
  | some true, _ => some true
  | _, some true => some true
  | some false, b => b
  | none, some false => none
  | none, none => none

inductive Ident
  | quoted (text : String)
  | bare (text : String)
  deriving DecidableEq, Repr

structure Folding where
  quoted : String → String
  bare : String → String

def Folding.name (fold : Folding) : Ident → String
  | .quoted text => fold.quoted text
  | .bare text => fold.bare text

structure TableRef where
  schema : Option Ident
  table : Ident
  deriving DecidableEq, Repr

structure ColumnRef where
  table : TableRef
  column : String
  deriving DecidableEq, Repr

inductive Condition
  | eq (a b : ColumnRef)
  | isNull (a : ColumnRef)
  | and (a b : Condition)
  | or (a b : Condition)

structure Exposed (ρ : Type) where
  schema : Option String
  name : String
  row : ρ

section

variable {V : Type} (fold : Folding) (same : V → V → Bool)

abbrev Row (V : Type) := String → Option V

/-- A name with a schema is never an alias. -/
def Exposed.answers (ref : TableRef) (x : Exposed (Row V)) : Bool :=
  fold.name ref.table = x.name &&
    match ref.schema with
    | none => true
    | some schema => x.schema = some (fold.name schema)

def resolve (ref : TableRef) : List (List (Exposed (Row V))) → Option (Row V)
  | [] => none
  | scope :: scopes =>
    match scope.find? (Exposed.answers fold ref) with
    | some x => some x.row
    | none => resolve ref scopes

def value (scopes : List (List (Exposed (Row V)))) (ref : ColumnRef) : Option (Option V) :=
  (resolve fold ref.table scopes).map (· ref.column)

def compare (a b : Option V) : Truth :=
  match a, b with
  | some a, some b => some (same a b)
  | _, _ => none

def Condition.eval (scopes : List (List (Exposed (Row V)))) : Condition → Option Truth
  | .eq a b => do return compare same (← value fold scopes a) (← value fold scopes b)
  | .isNull a => do return some (← value fold scopes a).isNone
  | .and a b => do return (← a.eval scopes).and (← b.eval scopes)
  | .or a b => do return (← a.eval scopes).or (← b.eval scopes)

/-- `DELETE FROM target WHERE EXISTS (SELECT 1 FROM source correlation WHERE condition)` -/
structure DeleteExists where
  target : TableRef
  source : TableRef
  correlation : Ident
  condition : Condition

def DeleteExists.scopes (d : DeleteExists) (source target : Row V) : List (List (Exposed (Row V))) :=
  [[⟨none, fold.name d.correlation, source⟩],
    [⟨d.target.schema.map fold.name, fold.name d.target.table, target⟩]]

def DeleteExists.deletes (d : DeleteExists) (sources : List (Row V)) (target : Row V) : Option Bool := do
  let truths ← sources.mapM fun source => d.condition.eval fold same (d.scopes fold source target)
  return truths.any (· = some true)

def DeleteExists.run (d : DeleteExists) (sources : List (Row V)) :
    List (Row V) → Option (List (Row V))
  | [] => some []
  | target :: targets => do
    let deleted ← d.deletes fold same sources target
    let left ← d.run sources targets
    return if deleted then left else target :: left

end

section

variable {V : Type} {fold : Folding} {same : V → V → Bool}

lemma DeleteExists.resolve_target (d : DeleteExists) (fold : Folding) (source target : Row V) :
    resolve fold d.target (d.scopes fold source target) =
      some (if d.target.schema = none ∧ fold.name d.target.table = fold.name d.correlation then source
        else target) := by
  obtain ⟨⟨schema, table⟩, _, correlation, _⟩ := d
  by_cases hname : fold.name table = fold.name correlation
  · cases schema <;> simp [resolve, DeleteExists.scopes, Exposed.answers, hname]
  · cases schema <;> simp [resolve, DeleteExists.scopes, Exposed.answers, hname]

variable {d : DeleteExists} {holds : Row V → Row V → Truth}

variable (h : ∀ source target,
  d.condition.eval fold same (d.scopes fold source target) = some (holds source target))

include h

lemma DeleteExists.deletes_eq (sources : List (Row V)) (target : Row V) :
    d.deletes fold same sources target =
      some (sources.any fun source => holds source target = some true) := by
  have hmap : (sources.mapM fun source =>
      d.condition.eval fold same (d.scopes fold source target)) =
        some (sources.map fun source => holds source target) := by
    induction sources with
    | nil => rfl
    | cons source sources ih =>
      rw [List.mapM_cons, h, ih]
      rfl
  rw [DeleteExists.deletes, hmap]
  simp [Function.comp_def]

lemma DeleteExists.run_eq (sources targets : List (Row V)) : d.run fold same sources targets =
      some (targets.filter fun target => !sources.any fun source => holds source target = some true) := by
  induction targets with
  | nil => rfl
  | cons target targets ih =>
    rw [DeleteExists.run, deletes_eq h, ih, List.filter_cons]
    cases hany : sources.any fun source => holds source target = some true <;> simp

end

end Dvt.Library.Sql
