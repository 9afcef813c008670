import Dvt.Library.JsonText
import Dvt.Library.Lines

/-! The values of settings: how they are coerced to their type, and their stored texts. -/

namespace Dvt.Settings

open Library List

abbrev Text := List Char

/-- A member of an enumeration is its text; `μ` are the numbers and the models. -/
inductive Setting (μ : Type)
  | none
  | bool (value : Bool)
  | str (text : Text)
  | inst (object : μ)

/-- A value from outside may also be some other JSON value. -/
inductive Value (μ : Type)
  | setting (value : Setting μ)
  | json (value : JsonText.Value)

variable {μ : Type}

def Value.ofJson : JsonText.Value → Value μ
  | .null => .setting .none
  | .bool value => .setting (.bool value)
  | .str codes =>
    if ∀ c ∈ codes, c.isValidChar then .setting (.str (codes.map Char.ofNat)) else .json (.str codes)
  | value => .json value

/-- The column of the value may be null. -/
def loads : Option Text → Option (Value μ)
  | none => some (.setting .none)
  | some payload => (JsonText.loads payload).map Value.ofJson

/-- `str` of a value that is no text, and the JSON text of a number or a dumped model. -/
structure Builtins (μ : Type) where
  str : Value μ → Text
  str_ne_nil : ∀ value, str value ≠ []
  dumps : μ → Text

variable {b : Builtins μ}

/-- The type of a setting without `None`. `int`, `float` and the models make their instances, within
the bounds of the setting; they take an instance as it is, and read it from its JSON text. -/
inductive SettingType (b : Builtins μ)
  | bool
  | str
  | enum (members : List Text)
  | other (make : Value μ → Option μ)
      (keeps : ∀ value x, make value = some x → make (.setting (.inst x)) = some x)
      (rereads : ∀ value x, make value = some x → ∃ json,
        loads (b.dumps x) = some (.json json : Value μ) ∧ make (.json json) = some x)

def coerceBool : Value μ → Option Bool
  | .setting (.bool value) => some value
  | .setting (.str text) =>
    let normalized := String.ofList ((stripSpace text).map Char.toLower)
    if normalized ∈ ["true", "yes", "1", "on"] then some true
    else if normalized ∈ ["false", "no", "0", "off"] then some false
    else none
  | _ => none

def SettingType.coerce : SettingType b → Value μ → Option (Setting μ)
  | .bool, value => (coerceBool value).map .bool
  | .str, .setting (.str text) => some (.str text)
  | .str, value => some (.str (b.str value))
  | .enum members, .setting (.str text) => if members.contains text then some (.str text) else none
  | .enum _, _ => none
  | .other make _ _, value => (make value).map .inst

structure SettingDefinition (b : Builtins μ) where
  key : String
  type_ : SettingType b
  optional : Bool
  default : Setting μ
  minLength : Option ℕ := none
  maxLength : Option ℕ := none
  runtimeEditable : Bool

def SettingDefinition.validateConstraints (definition : SettingDefinition b) : Setting μ → Bool
  | .str text => definition.minLength.all (· ≤ text.length) && definition.maxLength.all (text.length ≤ ·)
  | _ => true

def Value.isEmpty : Value μ → Bool
  | .setting (.str []) => true
  | _ => false

def coerceSettingValue (definition : SettingDefinition b) (value : Value μ) : Option (Setting μ) :=
  match if definition.optional && value.isEmpty then .setting .none else value with
  | .setting .none => if definition.optional then some .none else none
  | value => (definition.type_.coerce value).filter definition.validateConstraints

variable (b) in
def dumps : Setting μ → Option Text
  | .none => none
  | .bool value => some (if value then "true" else "false").toList
  | .str text => some (JsonText.quote text)
  | .inst object => some (b.dumps object)

section

variable {definition : SettingDefinition b} {value : Value μ} {setting : Setting μ}

lemma SettingType.coerce_spec {type_ : SettingType b} (h : type_.coerce value = some setting) :
    type_.coerce (.setting setting) = some setting ∧ setting ≠ .none ∧
      (Value.isEmpty (.setting setting) = true → value.isEmpty = true) ∧
      ∀ x, setting = .inst x → ∃ json, loads (b.dumps x) = some (.json json : Value μ) ∧
        type_.coerce (.json json) = some setting := by
  unfold coerce at h
  split at h
  · obtain ⟨x, -, rfl⟩ := Option.map_eq_some_iff.mp h
    exact ⟨rfl, nofun, nofun, nofun⟩
  · cases h
    exact ⟨rfl, nofun, id, nofun⟩
  · cases h
    refine ⟨rfl, nofun, fun he => ?_, nofun⟩
    rw [Value.isEmpty.eq_2 _ fun heq => ?_] at he
    · cases he
    · exact b.str_ne_nil _ (Setting.str.inj (Value.setting.inj heq))
  · split_ifs at h with hm
    cases h
    exact ⟨if_pos hm, nofun, id, nofun⟩
  · cases h
  · next make keeps rereads =>
    obtain ⟨x, hx, rfl⟩ := Option.map_eq_some_iff.mp h
    refine ⟨congrArg (Option.map Setting.inst) (keeps _ x hx), nofun, nofun, ?_⟩
    rintro _ ⟨⟩
    obtain ⟨json, hl, hmake⟩ := rereads _ x hx
    exact ⟨json, hl, congrArg (Option.map Setting.inst) hmake⟩

/-- Only the empty text is replaced, so a value that is none is coerced for itself. -/
lemma coerceSettingValue_eq_some : coerceSettingValue definition value = some setting ↔
    definition.optional = true ∧ setting = .none ∧
        (value = .setting .none ∨ value.isEmpty = true) ∨
      ¬ (definition.optional = true ∧ value.isEmpty = true) ∧ value ≠ .setting .none ∧
        definition.type_.coerce value = some setting ∧
        definition.validateConstraints setting = true := by
  rw [coerceSettingValue]
  by_cases he : definition.optional = true ∧ value.isEmpty = true
  · simp only [he, Bool.and_self, if_true]
    grind
  · split <;> grind [Option.filter_eq_some_iff]

lemma coerceSettingValue_self (h : coerceSettingValue definition value = some setting) :
    coerceSettingValue definition (.setting setting) = some setting := by
  rw [coerceSettingValue_eq_some] at h ⊢
  obtain ⟨ho, rfl, -⟩ | ⟨he, -, hc, hv⟩ := h
  · exact .inl ⟨ho, rfl, .inl rfl⟩
  · obtain ⟨hself, hn, hempty, -⟩ := SettingType.coerce_spec hc
    exact .inr ⟨fun h => he ⟨h.1, hempty h.2⟩, fun h => hn (Value.setting.inj h), hself, hv⟩

lemma loads_quote (text : Text) : loads (JsonText.quote text) = some (.setting (.str text) : Value μ) := by
  have h := JsonText.readValue_quote (JsonText.quote text).length text []
  rw [append_nil] at h
  have hl : JsonText.loads (JsonText.quote text) = some (.str (text.map Char.toNat)) :=
    JsonText.loads_of_readValue h rfl
  have hchars : ∀ c ∈ text.map Char.toNat, c.isValidChar := by
    simp only [mem_map, forall_exists_index, and_imp]
    rintro _ c - rfl
    exact c.valid
  rw [loads, hl, Option.map_some, Value.ofJson, if_pos hchars, map_map]
  simp [Function.comp_def]

/-- What is accepted is read back from its stored text as it was. -/
lemma loads_dumps (h : coerceSettingValue definition value = some setting) :
    ∃ raw, loads (dumps b setting) = some raw ∧ coerceSettingValue definition raw = some setting := by
  have hself := coerceSettingValue_self h
  cases setting with
  | none => exact ⟨_, rfl, hself⟩
  | bool value => exact ⟨_, by cases value <;> rfl, hself⟩
  | str text => exact ⟨_, loads_quote text, hself⟩
  | inst x =>
    obtain ⟨-, h, -⟩ | ⟨-, -, hc, hv⟩ := coerceSettingValue_eq_some.mp h
    · cases h
    · obtain ⟨json, hl, hjson⟩ := (SettingType.coerce_spec hc).2.2.2 x rfl
      exact ⟨_, hl, coerceSettingValue_eq_some.mpr (.inr ⟨nofun, nofun, hjson, hv⟩)⟩

end

end Dvt.Settings
