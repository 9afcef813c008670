import Dvt.Catalog.Cursor
import Dvt.Library.Folds
import Dvt.Library.Totals
import Mathlib.Data.Int.Notation
import Mathlib.Data.List.Forall2

/-! The preview of a table: its first rows, within a limit on the response. -/

namespace Dvt.Catalog

open Library List

inductive PreviewError
  | tooLarge | typeError | valueError | unicodeEncodeError | raised

inductive FloatValue
  | finite (repr : Text) | nan | inf | negInf

inductive Kind
  | binary (length : ℕ) | temporal (isoformat : Text) | printed | other

/-- An object carries what `str` gives for it. -/
inductive Cell
  | none
  | bool (value : Bool)
  | int (value : ℤ)
  | float (value : FloatValue)
  | str (text : Text)
  | seq (items : List Cell)
  | dict (fields : List (Cell × Cell))
  | object (kind : Kind) (str : Except PreviewError Text)

/-- Python refuses to write integers of more than 4300 digits. -/
def intRepr (n : ℤ) : Except PreviewError Text :=
  let digits := (Nat.toDigits 10 n.natAbs).map Char.toNat
  if 4300 < digits.length then .error .valueError
  else .ok (if n < 0 then '-'.toNat :: digits else digits)

def dumpsFloat : FloatValue → Text
  | .finite repr => repr
  | .nan => text "NaN"
  | .inf => text "Infinity"
  | .negInf => text "-Infinity"

def escape (c : ℕ) : Text := ((JsonText.escape? c).map codes).getD [c]

def dumpsStr (t : Text) : Text := text "\"" ++ t.flatMap escape ++ text "\""

def dumpsScalar : Cell → Except PreviewError Text
  | .none => .ok (text "null")
  | .bool value => .ok (text (if value then "true" else "false"))
  | .int value => intRepr value
  | .float value => .ok (dumpsFloat value)
  | _ => .error .typeError

def dumpsKey : Cell → Except PreviewError Text
  | .str t => .ok t
  | key => dumpsScalar key

mutual

/-- `json.dumps` without `ensure_ascii` and blanks; `defaultStr` is `default=str`. -/
def dumps (defaultStr : Bool) : Cell → Except PreviewError Text
  | .str t => .ok (dumpsStr t)
  | .seq items => do
    let items ← dumpsItems defaultStr items
    .ok (text "[" ++ (text ",").intercalate items ++ text "]")
  | .dict fields => do
    let fields ← dumpsFields defaultStr fields
    .ok (text "\x7b" ++ (text ",").intercalate fields ++ text "\x7d")
  | .object _ str => if defaultStr then str.map dumpsStr else .error .typeError
  | value => dumpsScalar value

def dumpsItems (defaultStr : Bool) : List Cell → Except PreviewError (List Text)
  | [] => .ok []
  | item :: items => do
    let first ← dumps defaultStr item
    let rest ← dumpsItems defaultStr items
    .ok (first :: rest)

def dumpsFields (defaultStr : Bool) : List (Cell × Cell) → Except PreviewError (List Text)
  | [] => .ok []
  | (key, value) :: fields => do
    let key ← dumpsKey key
    let value ← dumps defaultStr value
    let rest ← dumpsFields defaultStr fields
    .ok ((dumpsStr key ++ text ":" ++ value) :: rest)

end

def utf8Size (c : ℕ) : ℕ :=
  if c < 0x80 then 1 else if c < 0x800 then 2 else if c < 0x10000 then 3 else 4

def encodedLength (t : Text) : Except PreviewError ℕ :=
  if t.any fun c => 0xd800 ≤ c ∧ c ≤ 0xdfff then .error .unicodeEncodeError
  else .ok (total utf8Size t)

structure PreviewColumn where
  name : Text
  dtype : Text

structure Preview where
  columns : List PreviewColumn
  rows : List (List Cell)
  truncated : Bool

def Preview.payload (preview : Preview) : Cell :=
  .dict [(.str (text "columns"), .seq (preview.columns.map fun column =>
      .dict [(.str (text "name"), .str column.name), (.str (text "dtype"), .str column.dtype)])),
    (.str (text "rows"), .seq (preview.rows.map .seq)),
    (.str (text "truncated"), .bool preview.truncated)]

def previewPayloadSize (preview : Preview) : Except PreviewError ℕ := do
  encodedLength (← dumps false preview.payload)

structure PreviewLimits where
  cellMaxChars : ℕ
  pos : 1 ≤ cellMaxChars
  maxResponseBytes : ℤ

def clipPreviewText (t : Text) (maxChars : ℕ) : Text × Bool :=
  if t.length ≤ maxChars then (t, false)
  else if maxChars = 1 then (text "…", true)
  else (t.take (maxChars - 1) ++ text "…", true)

def floatStr : FloatValue → Text
  | .finite repr => repr
  | .nan => text "nan"
  | .inf => text "inf"
  | .negInf => text "-inf"

structure PreviewTable where
  columns : List PreviewColumn
  rows : List (List Cell)

def tablePreviewRowLimit : ℕ := 50

section

variable (repr : Cell → Except PreviewError Text) (limits : PreviewLimits)

def clipped (t : Text) : Cell × Bool :=
  let (t, truncated) := clipPreviewText t limits.cellMaxChars
  (.str t, truncated)

def orRepr (value : Cell) : Except PreviewError Text → Except PreviewError Text
  | .error .typeError | .error .valueError | .error .unicodeEncodeError => repr value
  | shown => shown

def normalizePreviewValue : Cell → Except PreviewError (Cell × Bool)
  | .none => .ok (.none, false)
  | .bool value => .ok (.bool value, false)
  | .int value => .ok (.int value, false)
  | .float (.finite repr) => .ok (.float (.finite repr), false)
  | .float value => .ok (.str (floatStr value), false)
  | .str t => .ok (clipped limits t)
  | .object (.binary length) _ => .ok ((clipped limits
    (text "<binary:" ++ (Nat.toDigits 10 length).map Char.toNat ++ text " bytes>")).1, true)
  | .object (.temporal isoformat) _ => .ok (clipped limits isoformat)
  | .object .printed str => str.map (clipped limits)
  | .object .other str => (orRepr repr (.object .other str) str).map (clipped limits)
  | value => (orRepr repr value (dumps true value)).map (clipped limits)

def normalizeRow : List Cell → Except PreviewError (List Cell × Bool)
  | [] => .ok ([], false)
  | value :: values => do
    let (normalized, valueTruncated) ← normalizePreviewValue repr limits value
    let (rest, rowTruncated) ← normalizeRow values
    .ok (normalized :: rest, valueTruncated || rowTruncated)

def collectRows (columns : List PreviewColumn) :
    List (List Cell) → List (List Cell) → Bool → Except PreviewError Preview
  | [], rows, truncated => .ok ⟨columns, rows, truncated⟩
  | rawRow :: rawRows, rows, truncated => do
    let (values, rowTruncated) ← normalizeRow repr limits rawRow
    let size ← previewPayloadSize ⟨columns, rows ++ [values], truncated || rowTruncated⟩
    if limits.maxResponseBytes < size then .ok ⟨columns, rows, true⟩
    else collectRows columns rawRows (rows ++ [values]) (truncated || rowTruncated)

def fetchPreview (table : PreviewTable) : Except PreviewError Preview := do
  let rawRows := (table.rows.take (tablePreviewRowLimit + 1)).take (tablePreviewRowLimit + 1)
  let hasMoreRows := decide (tablePreviewRowLimit < rawRows.length)
  let size ← previewPayloadSize ⟨table.columns, [], hasMoreRows⟩
  if limits.maxResponseBytes < size then .error .tooLarge
  else collectRows repr limits table.columns (rawRows.take tablePreviewRowLimit) [] hasMoreRows

end

section

variable (repr : Cell → Except PreviewError Text)

/-- The text of a value that is shown by one; that of a binary value is only its length. -/
def wholeText : Cell → Option Text
  | .none | .bool _ | .int _ | .float (.finite _) | .object (.binary _) _ => none
  | .float value => some (floatStr value)
  | .str t | .object (.temporal t) _ => some t
  | .object .printed str => str.toOption
  | .object .other str => (orRepr repr (.object .other str) str).toOption
  | value => (orRepr repr value (dumps true value)).toOption

def Unshortened (cell value : Cell) : Prop := value = cell ∨ ∃ t ∈ wholeText repr cell, value = .str t

end

def Fits (limits : PreviewLimits) (preview : Preview) : Prop :=
  ∃ size : ℕ, previewPayloadSize preview = .ok size ∧ size ≤ limits.maxResponseBytes

structure Honest (repr : Cell → Except PreviewError Text) (limits : PreviewLimits) (table : PreviewTable)
    (preview : Preview) : Prop where
  size : Fits limits preview
  count : preview.rows.length ≤ tablePreviewRowLimit
  rows : Forall₂ (fun row values => ∃ truncated, normalizeRow repr limits row = .ok (values, truncated))
    (table.rows.take preview.rows.length) preview.rows
  complete : preview.truncated = false → Forall₂ (Forall₂ (Unshortened repr)) table.rows preview.rows

variable {repr : Cell → Except PreviewError Text} {limits : PreviewLimits} {columns : List PreviewColumn}
  {rawRows rows : List (List Cell)} {truncated : Bool} {preview : Preview}

lemma dumps_payload (columns : List PreviewColumn) (rows : List (List Cell)) :
    (∃ error, ∀ b, dumps false (Preview.payload ⟨columns, rows, b⟩) = .error error) ∨
      ∃ front, ∀ b, dumps false (Preview.payload ⟨columns, rows, b⟩) =
        .ok (front ++ text (if b then "true" else "false") ++ text "\x7d") := by
  simp only [Preview.payload, dumps, dumpsFields, dumpsKey, dumpsScalar]
  cases hc : dumpsItems false (columns.map fun column =>
      .dict [(.str (text "name"), .str column.name), (.str (text "dtype"), .str column.dtype)]) with
  | error error => exact .inl ⟨error, fun _ => rfl⟩
  | ok columns =>
    cases hr : dumpsItems false (rows.map .seq) with
    | error error => exact .inl ⟨error, fun _ => rfl⟩
    | ok rows =>
      refine .inr ⟨text "\x7b" ++ (text ",").intercalate
        [dumpsStr (text "columns") ++ text ":" ++ (text "[" ++ (text ",").intercalate columns ++ text "]"),
          dumpsStr (text "rows") ++ text ":" ++ (text "[" ++ (text ",").intercalate rows ++ text "]"),
          dumpsStr (text "truncated") ++ text ":"], fun b => ?_⟩
      simp [Bind.bind, Except.bind]

lemma encodedLength_true {front : Text} {size : ℕ}
    (h : encodedLength (front ++ text "false" ++ text "\x7d") = .ok size) :
    ∃ smaller ≤ size, encodedLength (front ++ text "true" ++ text "\x7d") = .ok smaller := by
  rw [encodedLength] at h
  split_ifs at h with hs
  cases h
  refine ⟨_, ?_, if_neg ?_⟩
  · simp [text, codes, total_append, utf8Size]
  · simp_all [text, codes]

lemma Fits.truncate (h : Fits limits ⟨columns, rows, truncated⟩) :
    Fits limits ⟨columns, rows, true⟩ := by
  obtain ⟨size, hs, hle⟩ := h
  cases truncated with
  | true => exact ⟨size, hs, hle⟩
  | false =>
    obtain ⟨error, he⟩ | ⟨front, hf⟩ := dumps_payload columns rows
    · rw [previewPayloadSize, he] at hs
      cases hs
    · rw [previewPayloadSize, hf] at hs
      obtain ⟨smaller, hle', hs'⟩ := encodedLength_true hs
      refine ⟨smaller, by rw [previewPayloadSize, hf]; exact hs', ?_⟩
      omega

lemma whole_of_clipped (shown : Except PreviewError Text) {value : Cell}
    (h : shown.map (clipped limits) = .ok (value, false)) :
    ∃ t ∈ shown.toOption, value = .str t := by
  obtain ⟨t, rfl, ht⟩ := map_eq_ok.mp h
  rw [clipped, clipPreviewText] at ht
  split_ifs at ht
  · exact ⟨t, rfl, (congrArg Prod.fst ht).symm⟩
  · cases ht
  · cases ht

lemma unshortened_of_normalize {cell value : Cell}
    (h : normalizePreviewValue repr limits cell = .ok (value, false)) : Unshortened repr cell value := by
  cases cell with
  | none | bool value | int value =>
    cases h
    exact .inl rfl
  | float number =>
    cases number with
    | finite =>
      cases h
      exact .inl rfl
    | _ =>
      cases h
      exact .inr ⟨_, rfl, rfl⟩
  | str t => exact .inr (whole_of_clipped (.ok t) h)
  | object kind str =>
    cases kind with
    | binary length => cases h
    | temporal isoformat => exact .inr (whole_of_clipped (.ok isoformat) h)
    | printed | other => exact .inr (whole_of_clipped _ h)
  | seq items | dict fields => exact .inr (whole_of_clipped _ h)

lemma unshortened_of_normalizeRow {row values : List Cell}
    (h : normalizeRow repr limits row = .ok (values, false)) : Forall₂ (Unshortened repr) row values := by
  induction row generalizing values with
  | nil =>
    cases h
    exact .nil
  | cons cell row ih =>
    obtain ⟨⟨value, valueTruncated⟩, hv, h⟩ := bind_eq_ok.mp h
    obtain ⟨⟨rest, rowTruncated⟩, hr, h⟩ := bind_eq_ok.mp h
    obtain ⟨rfl, hflag⟩ := Prod.mk.inj (Except.ok.inj h)
    obtain ⟨rfl, rfl⟩ := Bool.or_eq_false_iff.mp hflag
    exact .cons (unshortened_of_normalize hv) (ih hr)

lemma collectRows_spec (hfits : Fits limits ⟨columns, rows, truncated⟩)
    (h : collectRows repr limits columns rawRows rows truncated = .ok preview) :
    Fits limits preview ∧ ∃ news, preview.rows = rows ++ news ∧
      Forall₂ (fun row values => ∃ truncated, normalizeRow repr limits row = .ok (values, truncated))
        (rawRows.take news.length) news ∧
      (preview.truncated = false → truncated = false ∧
        Forall₂ (Forall₂ (Unshortened repr)) rawRows news) := by
  -- the candidate that was accepted last is the preview, up to the flag
  induction rawRows generalizing rows truncated with
  | nil =>
    cases h
    exact ⟨hfits, [], by simp, .nil, fun ht => ⟨ht, .nil⟩⟩
  | cons rawRow rawRows ih =>
    obtain ⟨⟨values, rowTruncated⟩, hn, h⟩ := bind_eq_ok.mp h
    obtain ⟨size, hs, h⟩ := bind_eq_ok.mp h
    split_ifs at h with hl
    · cases h
      exact ⟨hfits.truncate, [], by simp, .nil, nofun⟩
    · obtain ⟨hp, news, hr, hnews, hc⟩ := ih ⟨size, hs, Int.not_lt.mp hl⟩ h
      refine ⟨hp, values :: news, by simp [hr], .cons ⟨rowTruncated, hn⟩ hnews, fun ht => ?_⟩
      obtain ⟨hflag, hrows⟩ := hc ht
      obtain ⟨rfl, rfl⟩ := Bool.or_eq_false_iff.mp hflag
      exact ⟨rfl, .cons (unshortened_of_normalizeRow hn) hrows⟩

theorem preview_honest {table : PreviewTable} (h : fetchPreview repr limits table = .ok preview) :
    Honest repr limits table preview := by
  obtain ⟨size, hs, h⟩ := bind_eq_ok.mp h
  split_ifs at h with hl
  obtain ⟨hp, news, hr, hnews, hc⟩ := collectRows_spec ⟨size, hs, Int.not_lt.mp hl⟩ h
  rw [nil_append] at hr
  have hlen := hnews.length_eq
  simp only [length_take] at hlen
  have hcount : news.length ≤ tablePreviewRowLimit := by omega
  refine ⟨hp, hr ▸ hcount, ?_, fun ht => ?_⟩
  · rw [take_take, take_take, take_take, Nat.min_eq_left hcount, Nat.min_eq_left (by omega),
      Nat.min_eq_left (by omega)] at hnews
    rw [hr]
    exact hnews
  · obtain ⟨hmore, hrows⟩ := hc ht
    have hall : table.rows.length ≤ tablePreviewRowLimit := by
      simp only [length_take, decide_eq_false_iff_not] at hmore
      omega
    rw [take_of_length_le, take_of_length_le, take_of_length_le] at hrows
    · rw [hr]
      exact hrows
    all_goals
      grind

def sampleLimits : PreviewLimits := ⟨3, by decide, 90⟩

def sampleTable : PreviewTable where
  columns := [⟨text "name", text "string"⟩]
  rows := [[.str (text "ab")], [.str (text "abcd")], [.none]]

theorem preview_honest_sampleTable :
    Honest (fun _ => .ok []) sampleLimits sampleTable
      ⟨sampleTable.columns, [[.str (text "ab")], [.str (text "ab…")]], true⟩ :=
  preview_honest rfl

end Dvt.Catalog
