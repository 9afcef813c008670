import Dvt.Library.Runs
import Dvt.Settings.Values

/-! The application settings: the registry, the merge, and the calls through one cache. -/

namespace Dvt.Settings

open Library List Dict

inductive SettingsError
  | notFound (key : String)
  | readOnly (key : String)
  | validation (key : String)
  | payload (key : String)
  deriving DecidableEq, Repr

/-- The stored values. -/
abbrev Rows := Dict String (Option Text)

abbrev AppSettings (μ : Type) := Dict String (Setting μ)

variable {μ : Type} {b : Builtins μ}

structure Registry (b : Builtins μ) where
  allDefinitions : List (SettingDefinition b)
  nodup : (allDefinitions.map SettingDefinition.key).Nodup

def SettingDefinition.validate (definition : SettingDefinition b) (value : Value μ) :
    Except SettingsError (Setting μ) :=
  match coerceSettingValue definition value with
  | some coerced => .ok coerced
  | none => .error (.validation definition.key)

lemma validate_eq_ok {definition : SettingDefinition b} {value : Value μ} {w : Setting μ} :
    definition.validate value = .ok w ↔ coerceSettingValue definition value = some w := by
  cases h : coerceSettingValue definition value <;> simp [SettingDefinition.validate, h]

namespace Registry

variable (registry : Registry b)

def getDefinition (key : String) : Except SettingsError (SettingDefinition b) :=
  match registry.allDefinitions.find? (·.key = key) with
  | some definition => .ok definition
  | none => .error (.notFound key)

def contains (key : String) : Bool := registry.allDefinitions.any (·.key = key)

def defaultValues : AppSettings μ :=
  registry.allDefinitions.foldl (fun values d => values.set d.key d.default) .empty

def validateValue (key : String) (value : Value μ) : Except SettingsError (Setting μ) := do
  (← registry.getDefinition key).validate value

def validateValues (values : AppSettings μ) : Except SettingsError (AppSettings μ) :=
  registry.allDefinitions.foldlM (fun validated d => do
    let value ← d.validate (.setting ((values.get? d.key).getD d.default))
    pure (validated.set d.key value)) .empty

def valueRowToDomain (key : String) (payload : Option Text) : Except SettingsError (Setting μ) :=
  match loads payload with
  | none => .error (.payload key)
  | some rawValue => registry.validateValue key rawValue

def getValues (rows : Rows) (keys : List String) : Except SettingsError (AppSettings μ) :=
  (rows.entries.filter fun row => decide (row.1 ∈ keys) && registry.contains row.1).foldlM
    (fun values row => do
      let value ← registry.valueRowToDomain row.1 row.2
      pure (values.set row.1 value)) .empty

/-- Stored rows over the environment, and that over the defaults. -/
def resolveSettings (env : AppSettings μ) (rows : Rows) :
    Except SettingsError (AppSettings μ) := do
  let persisted ← registry.getValues rows (registry.allDefinitions.map SettingDefinition.key)
  registry.validateValues ((registry.defaultValues.update env).update persisted)

end Registry

variable {registry : Registry b} {d : SettingDefinition b}

lemma getDefinition_eq_ok {key : String} :
    registry.getDefinition key = .ok d ↔ d ∈ registry.allDefinitions ∧ d.key = key := by
  rw [Registry.getDefinition]
  cases hf : registry.allDefinitions.find? (·.key = key) with
  | none =>
    simp only [List.find?_eq_none, decide_eq_true_eq] at hf
    simp only [reduceCtorEq, false_iff, not_and]
    exact fun hd => hf d hd
  | some e =>
    have he := List.find?_some hf
    have hmem := mem_of_find?_eq_some hf
    simp only [decide_eq_true_eq] at he
    simp only [Except.ok.injEq]
    constructor
    · rintro rfl
      exact ⟨hmem, he⟩
    · rintro ⟨hd, hk⟩
      exact inj_on_of_nodup_map registry.nodup hmem hd (he.trans hk.symm)

lemma validateValue_of_mem (hd : d ∈ registry.allDefinitions) (v : Value μ) :
    registry.validateValue d.key v = d.validate v := by
  rw [Registry.validateValue, getDefinition_eq_ok.mpr ⟨hd, rfl⟩]
  rfl

/-- The stored text of the value is read back as the value, which is one of its type. -/
structure Storable (d : SettingDefinition b) (w : Setting μ) : Prop where
  self : coerceSettingValue d (.setting w) = some w
  stored : ∃ raw, loads (dumps b w) = some raw ∧ coerceSettingValue d raw = some w

variable {w : Setting μ} {rows : Rows} {values : AppSettings μ}

lemma get?_getValues {keys : List String}
    (h : registry.getValues rows keys = .ok values) (hd : d ∈ registry.allDefinitions)
    (hkey : d.key ∈ keys) (hrow : rows.get? d.key = some (dumps b w)) (hw : Storable d w) :
    values.get? d.key = some w := by
  have hmem : (d.key, dumps b w) ∈ rows.entries.filter fun row =>
      decide (row.1 ∈ keys) && registry.contains row.1 := by
    rw [mem_filter]
    refine ⟨get?_eq_some.mp hrow, ?_⟩
    simp only [hkey, decide_true, Bool.true_and, Registry.contains, any_eq_true, decide_eq_true_eq]
    exact ⟨d, hd, rfl⟩
  have hn : ((rows.entries.filter fun row =>
      decide (row.1 ∈ keys) && registry.contains row.1).map Prod.fst).Nodup :=
    rows.nodup.sublist (filter_sublist.map _)
  obtain ⟨v, hv, hget⟩ := get?_foldlM_set hn h hmem
  obtain ⟨raw, hraw, hw⟩ := hw.stored
  rw [Registry.valueRowToDomain, hraw] at hv
  dsimp only at hv
  rw [validateValue_of_mem hd, validate_eq_ok, hw] at hv
  rw [hget, hv]

variable {settings : AppSettings μ}

lemma get?_resolveSettings {env : AppSettings μ}
    (h : registry.resolveSettings env rows = .ok settings) (hd : d ∈ registry.allDefinitions)
    (hrow : rows.get? d.key = some (dumps b w)) (hw : Storable d w) :
    settings.get? d.key = some w := by
  obtain ⟨persisted, hp, hv⟩ := bind_eq_ok.mp h
  have hget := get?_getValues hp hd (mem_map_of_mem hd) hrow hw
  obtain ⟨v, hv, hs⟩ := get?_foldlM_set registry.nodup hv hd
  rw [get?_update, hget, Option.some_or, Option.getD_some, validate_eq_ok, hw.self] at hv
  rw [hs, hv]

/-- Where a call stands before its next access. A saved row is in its call's session until that
commits; `readAt` and `writtenAt` are places in the log of committed writes. -/
inductive Pc (μ : Type)
  | getCached
  | readRows
  | setCache (settings : AppSettings μ) (readAt : ℕ)
  | gave (settings : AppSettings μ)
  | check (key : String) (value : Value μ)
  | save (key : String) (validated : Setting μ)
  | invalidateCache (key : String) (saved : Setting μ)
  | commit (key : String) (saved : Setting μ)
  | returned (key : String) (saved : Setting μ) (writtenAt : ℕ)
  | raised (error : SettingsError)

/-- No call reads the log of committed writes. -/
structure Shared (μ : Type) where
  cache : Option (AppSettings μ)
  rows : Rows
  written : List (String × Setting μ)

section

variable (registry : Registry b) (env : AppSettings μ)

def checkSetting (rows : Rows) (key : String) (value : Value μ) :
    Except SettingsError (Setting μ) := do
  let definition ← registry.getDefinition key
  if definition.runtimeEditable then
    let _ ← registry.getValues rows [key]
    registry.validateValue key value
  else .error (.readOnly key)

def advance (p : Shared μ) : Pc μ → Shared μ × Pc μ
  | .getCached =>
    match p.cache with
    | some cached => (p, .gave cached)
    | none => (p, .readRows)
  | .readRows =>
    match registry.resolveSettings env p.rows with
    | .ok settings => (p, .setCache settings p.written.length)
    | .error error => (p, .raised error)
  | .setCache settings _ => ({ p with cache := some settings }, .gave settings)
  | .check key value =>
    match checkSetting registry p.rows key value with
    | .ok validated => (p, .save key validated)
    | .error error => (p, .raised error)
  | .save key validated => (p, .invalidateCache key validated)
  | .invalidateCache key saved => ({ p with cache := none }, .commit key saved)
  | .commit key saved =>
    ({ p with rows := p.rows.set key (dumps b saved), written := p.written ++ [(key, saved)] },
      .returned key saved p.written.length)
  | pc => (p, pc)

structure State (μ : Type) where
  shared : Shared μ
  calls : List (Pc μ)

def step (s : State μ) (i : ℕ) : State μ :=
  match s.calls[i]? with
  | none => s
  | some pc =>
    let (shared, pc') := advance registry env s.shared pc
    ⟨shared, s.calls.set i pc'⟩

structure Initial (s : State μ) : Prop where
  cache : s.shared.cache = none
  written : s.shared.written = []
  calls : ∀ pc ∈ s.calls, pc = .getCached ∨ ∃ key value, pc = .check key value

end

/-- No call filled the cache between the writer's invalidation and its commit, and no write was
committed between the reader's database read and its cache set. -/
def Pc.Undisturbed (p : Shared μ) : Pc μ → Prop
  | .commit _ _ => p.cache = none
  | .setCache _ readAt => readAt = p.written.length
  | _ => True

instance (p : Shared μ) : ∀ pc : Pc μ, Decidable (pc.Undisturbed p)
  | .commit _ _ => inferInstanceAs (Decidable (p.cache = none))
  | .setCache _ readAt => inferInstanceAs (Decidable (readAt = p.written.length))
  | .getCached | .readRows | .gave _ | .check _ _ | .save _ _ | .invalidateCache _ _
  | .returned _ _ _ | .raised _ => isTrue trivial

def Undisturbed (s : State μ) (i : ℕ) : Prop := ∀ pc ∈ s.calls[i]?, pc.Undisturbed s.shared

instance (s : State μ) (i : ℕ) : Decidable (Undisturbed s i) :=
  inferInstanceAs (Decidable (∀ pc ∈ s.calls[i]?, pc.Undisturbed s.shared))

end Dvt.Settings
