import Dvt.Json.Paths
import Dvt.Library.Dict
import Dvt.Library.JsonText

/-! Lists of lists in a JSON document, turned into records. -/

namespace Dvt.Json

open Library List Dict

/-- `ν` are the numbers. -/
abbrev Value (ν : Type) := JsonValue Text ν

def extraValuesKey : Text := "_extra_values".toList

structure Matrix where
  headerRow : Bool
  columns : List Text

def Matrix.dataRows {α : Type} (matrix : Matrix) (rows : List α) : List α :=
  if matrix.headerRow then rows.tail else rows

def numbered (name : Text) (occurrence : ℕ) : Text :=
  name ++ '_' :: '_' :: Nat.toDigits 10 occurrence

/-- `seen` are the names before, which the source counts. -/
def deduplicate (seen : List Text) : List Text → List Text
  | [] => []
  | name :: names =>
    (if seen.count name = 0 then name else numbered name (seen.count name + 1)) ::
      deduplicate (name :: seen) names

def dominantLength (lengths : List ℕ) : ℕ :=
  lengths.foldl (fun best length =>
    if lengths.count best < lengths.count length ∨
      lengths.count best = lengths.count length ∧ best < length then length else best) 0

variable {ν : Type}

def Value.cells : Value ν → Option (List (Value ν))
  | .arr items => some items
  | _ => none

def Value.isName : Value ν → Bool
  | .str text => stripSpace text ≠ []
  | _ => false

def looksLikeHeaderRow (row : List (Value ν)) (dominantLength : ℕ) : Bool :=
  row.length = dominantLength ∧ 0 < row.length ∧ 3 * row.length ≤ 4 * row.countP Value.isName

/-- `pyStr` is `str` of a cell that is no string. -/
def baseColumnName (pyStr : Value ν → Text) (headerSource : Option (List (Value ν))) (index : ℕ) :
    Text :=
  let candidate := match headerSource.bind (·[index]?) with
    | none | some .null => []
    | some (.str text) => stripSpace text
    | some cell => stripSpace (pyStr cell)
  if candidate = [] then "column_".toList ++ Nat.toDigits 10 (index + 1) else candidate

variable (pyStr : Value ν → Text)

def baseNames (headerRow : Bool) (rows : List (List (Value ν))) (width : ℕ) : List Text :=
  (range width).map (baseColumnName pyStr (if headerRow then rows.head? else none))

def detectTabularMatrix (value : List (Value ν)) : Option Matrix :=
  let rows := value.filterMap Value.cells
  let lengths := rows.map length
  let dominant := dominantLength lengths
  if value.length < 2 ∨ rows.length ≠ value.length ∨ lengths.countP (0 < ·) < 2 ∨ dominant < 2 ∨
    5 * lengths.count dominant < 4 * lengths.length then none
  else
    let headerRow := looksLikeHeaderRow (rows.headD []) dominant
    some ⟨headerRow, deduplicate [] (baseNames pyStr headerRow rows dominant)⟩

def record (columns : List Text) (row : List (Value ν)) : Dict Text (Value ν) :=
  let cells := columns.zipIdx.foldl (fun record e => record.set e.1 (row.getD e.2 .null)) .empty
  if columns.length < row.length then cells.set extraValuesKey (.arr (row.drop columns.length))
  else cells

mutual

def normalizeValue : Value ν → Value ν
  | .obj fields => .obj (normalizeFields fields)
  | .arr items => match detectTabularMatrix pyStr items with
    | none => .arr (normalizeItems items)
    | some matrix => .arr ((matrix.dataRows (normalizeRows items)).map fun row =>
      .obj (record matrix.columns row).entries)
  | value => value

def normalizeItems : List (Value ν) → List (Value ν)
  | [] => []
  | item :: items => normalizeValue item :: normalizeItems items

def normalizeFields : List (Text × Value ν) → List (Text × Value ν)
  | [] => []
  | (key, item) :: fields => (key, normalizeValue item) :: normalizeFields fields

def normalizeRows : List (Value ν) → List (List (Value ν))
  | [] => []
  | .arr row :: rows => normalizeItems row :: normalizeRows rows
  | _ :: rows => normalizeRows rows

end

inductive Visits : Value ν → List (Value ν) → Prop
  | here {list} : Visits (.arr list) list
  | field {key value fields list} : (key, value) ∈ fields → Visits value list →
    Visits (.obj fields) list
  | item {value items list} : detectTabularMatrix pyStr items = none → value ∈ items →
    Visits value list → Visits (.arr items) list
  | cell {value matrix items list row} : detectTabularMatrix pyStr items = some matrix →
    .arr row ∈ matrix.dataRows items → value ∈ row → Visits value list → Visits (.arr items) list

/-- Every cell is, normalised, under its column or at its place in the extra values. -/
def Keeps (columns : List Text) (row : List (Value ν)) (value : Value ν) : Prop :=
  ∃ record : Dict Text (Value ν), value = .obj record.entries ∧ ∀ j cell, row[j]? = some cell →
    match columns[j]? with
    | some column => record.get? column = some (normalizeValue pyStr cell)
    | none => ∃ extra, record.get? extraValuesKey = some (.arr extra) ∧
      extra[j - columns.length]? = some (normalizeValue pyStr cell)

structure Lossless (list : List (Value ν)) (matrix : Matrix) : Prop where
  distinct : matrix.columns.Nodup
  extra : extraValuesKey ∉ matrix.columns
  cells : ∃ records, normalizeValue pyStr (.arr list) = .arr records ∧
    Forall₂ (Keeps pyStr matrix.columns) (matrix.dataRows (list.filterMap Value.cells)) records

def Matrix.names (matrix : Matrix) (list : List (Value ν)) : List Text :=
  baseNames pyStr matrix.headerRow (list.filterMap Value.cells) matrix.columns.length

/-- No name is another one's numbered form, or the key of the extra values. -/
def Clean (names : List Text) : Prop :=
  (∀ name k, 2 ≤ k → k ≤ names.count name → numbered name k ∉ names) ∧ extraValuesKey ∉ names

variable {pyStr} {names columns : List Text} {name other : Text} {k l : ℕ}

lemma numbered_inj (h : numbered name k = numbered other l) : name = other ∧ k = l := by
  have hd : ∀ name k, (numbered name k).reverse.takeWhile (· ≠ '_') =
      (Nat.toDigits 10 k).reverse := by
    intro name k
    rw [numbered, reverse_append, reverse_cons, reverse_cons, append_assoc, append_assoc,
      takeWhile_append_of_pos]
    · simp
    · intro c hc
      exact decide_eq_true fun h => Nat.underscore_not_in_toDigits (h ▸ mem_reverse.mp hc)
  have hk : k = l := by
    have heq := (hd name k).symm.trans (h ▸ hd other l)
    rw [← Nat.ofDigitChars_ten_toDigits (n := k), reverse_injective heq,
      Nat.ofDigitChars_ten_toDigits]
  subst hk
  exact ⟨append_cancel_right h, rfl⟩

lemma extraValuesKey_ne_numbered : extraValuesKey ≠ numbered name k := by
  intro h
  have hl : 's' ∈ (numbered name k).getLast? := h ▸ rfl
  rw [numbered, getLast?_append_of_ne_nil _ (by simp), getLast?_cons_cons,
    getLast?_cons_of_ne_nil Nat.toDigits_ne_nil] at hl
  have hd := Nat.isDigit_of_mem_toDigits (by decide) le_rfl (mem_of_getLast? hl)
  exact absurd hd (by decide)

lemma deduplicate_concat (seen names : List Text) (name : Text) :
    deduplicate seen (names ++ [name]) = deduplicate seen names ++
      [if seen.count name + names.count name = 0 then name
        else numbered name (seen.count name + names.count name + 1)] := by
  induction names generalizing seen with
  | nil => rfl
  | cons first names ih =>
    rw [cons_append, deduplicate, ih, deduplicate, count_cons, count_cons]
    simp only [Nat.add_assoc, Nat.add_comm (names.count name), cons_append]

lemma mem_deduplicate {column : Text} : column ∈ deduplicate [] names ↔
    column ∈ names ∨ ∃ name k, 2 ≤ k ∧ k ≤ names.count name ∧ column = numbered name k := by
  induction names using reverseRecOn with
  | nil => simp [deduplicate]
  | append_singleton names last ih =>
    rw [deduplicate_concat, mem_append, ih, mem_append, mem_singleton, mem_singleton, count_nil,
      Nat.zero_add]
    by_cases hl : names.count last = 0
    · rw [if_pos hl]
      grind
    · rw [if_neg hl]
      grind

lemma nodup_deduplicate : (deduplicate [] names).Nodup ↔
    ∀ name k, 2 ≤ k → k ≤ names.count name → numbered name k ∉ names := by
  induction names using reverseRecOn with
  | nil => simp [deduplicate]
  | append_singleton names last ih =>
    rw [deduplicate_concat, ← concat_eq_append, nodup_concat, ih, mem_deduplicate, count_nil,
      Nat.zero_add]
    by_cases hl : names.count last = 0
    · rw [if_pos hl]
      grind
    · rw [if_neg hl]
      have hnew : ∀ name k, 2 ≤ k → k ≤ names.count name →
          numbered last (names.count last + 1) ≠ numbered name k := by
        intro name k _ hk h
        obtain ⟨rfl, rfl⟩ := numbered_inj h
        omega
      grind

lemma length_deduplicate (seen names : List Text) :
    (deduplicate seen names).length = names.length := by
  induction names generalizing seen with
  | nil => rfl
  | cons name names ih => simp [deduplicate, ih]

lemma columns_eq {list : List (Value ν)} {matrix : Matrix}
    (h : detectTabularMatrix pyStr list = some matrix) :
    matrix.columns = deduplicate [] (matrix.names pyStr list) := by
  rw [detectTabularMatrix] at h
  split_ifs at h
  cases h
  simp [Matrix.names, length_deduplicate, baseNames]

lemma normalizeItems_eq (items : List (Value ν)) :
    normalizeItems pyStr items = items.map (normalizeValue pyStr) := by
  induction items with
  | nil => rfl
  | cons item items ih => rw [normalizeItems, ih, map_cons]

lemma normalizeRows_eq (items : List (Value ν)) : normalizeRows pyStr items =
    (items.filterMap Value.cells).map (map (normalizeValue pyStr)) := by
  induction items with
  | nil => rfl
  | cons item items ih =>
    cases item <;> simp [normalizeRows, filterMap_cons, Value.cells, ih, normalizeItems_eq]

lemma keeps_record (hd : columns.Nodup) (he : extraValuesKey ∉ columns) (row : List (Value ν)) :
    Keeps pyStr columns row (.obj (record columns (row.map (normalizeValue pyStr))).entries) := by
  refine ⟨_, rfl, fun j cell hcell => ?_⟩
  have hj := (List.getElem?_eq_some_iff.mp hcell).1
  split
  · next column hc =>
    have hne : column ≠ extraValuesKey := fun h => he (h ▸ mem_of_getElem? hc)
    have hmem : column ∈ columns.zipIdx.map Prod.fst := by simpa using mem_of_getElem? hc
    obtain ⟨⟨_, i⟩, hi, rfl, hget⟩ := get?_foldl_set_of_mem
      (g := fun e => (row.map (normalizeValue pyStr)).getD e.2 .null) .empty hmem
    have hij : j = i := (getElem?_inj (List.getElem?_eq_some_iff.mp hc).1 hd).mp
      (hc.trans (mk_mem_zipIdx_iff_getElem?.mp hi).symm)
    have hvalue : (row.map (normalizeValue pyStr)).getD i .null = normalizeValue pyStr cell := by
      simp [← hij, hcell]
    rw [record, ← hvalue]
    split
    · rw [get?_set, if_neg hne]
      exact hget
    · exact hget
  · next hn =>
    have hle := getElem?_eq_none_iff.mp hn
    refine ⟨_, by rw [record, if_pos (by rw [length_map]; omega), get?_set, if_pos rfl], ?_⟩
    rw [getElem?_drop, Nat.add_sub_cancel' hle, getElem?_map, hcell, Option.map_some]

lemma lossless_iff {list : List (Value ν)} {matrix : Matrix}
    (h : detectTabularMatrix pyStr list = some matrix) :
    Lossless pyStr list matrix ↔ Clean (matrix.names pyStr list) := by
  have hext : extraValuesKey ∈ matrix.columns ↔ extraValuesKey ∈ matrix.names pyStr list := by
    rw [columns_eq h, mem_deduplicate]
    simp [extraValuesKey_ne_numbered]
  have hn := @nodup_deduplicate (matrix.names pyStr list)
  rw [← columns_eq h] at hn
  constructor
  · intro hl
    exact ⟨hn.mp hl.distinct, fun hmem => hl.extra (hext.mpr hmem)⟩
  · rintro ⟨hd, he⟩
    refine ⟨hn.mpr hd, mt hext.mp he, _, by rw [normalizeValue, h], ?_⟩
    have hrows : matrix.dataRows (normalizeRows pyStr list) =
        (matrix.dataRows (list.filterMap Value.cells)).map (map (normalizeValue pyStr)) := by
      rw [normalizeRows_eq, Matrix.dataRows, Matrix.dataRows]
      split <;> simp
    rw [hrows, map_map, forall₂_map_right_iff, forall₂_same]
    exact fun row _ => keeps_record (hn.mpr hd) (mt hext.mp he) row

theorem matrices_lossless_iff (pyStr : Value ν → Text) (value : Value ν) :
    (∀ list, Visits pyStr value list → ∀ matrix ∈ detectTabularMatrix pyStr list,
      Lossless pyStr list matrix) ↔
    ∀ list, Visits pyStr value list → ∀ matrix ∈ detectTabularMatrix pyStr list,
      Clean (matrix.names pyStr list) :=
  forall₄_congr fun _ _ _ h => lossless_iff h

def numberedHeader : List (Value ℕ) := [["a", "a", "a__2"], ["1", "2", "3"]].map fun row =>
  .arr (row.map fun text => .str text.toList)

theorem numbered_header_loses_cell : ∃ matrix,
    detectTabularMatrix (fun _ => []) numberedHeader = some matrix ∧
    normalizeValue (fun _ => []) (.arr numberedHeader) =
      .arr [.obj [("a".toList, .str ['1']), ("a__2".toList, .str ['3'])]] ∧
    ¬ Lossless (fun _ => []) numberedHeader matrix :=
  ⟨_, rfl, rfl, fun h => absurd h.distinct (by decide +kernel)⟩

end Dvt.Json
