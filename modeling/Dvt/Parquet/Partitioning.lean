import Dvt.Library.Chunks
import Dvt.Library.Folds
import Dvt.Library.Percent
import Dvt.Library.Segments

/-! Requests for a partitioned Parquet dataset: their checks, and the names and rows of files. -/

namespace Dvt.Parquet

open List

open Library

variable {u : Unit}

abbrev Path := List Char

inductive WriteMode
  | create
  | overwrite
  | append
  deriving DecidableEq, Repr

structure ParquetWriteRequest where
  path : Path
  mode : WriteMode
  filenameTemplate : Option Path
  rowCap : Option ℕ
  partitionOn : List Path
  writeWorkers : ℕ

inductive ParquetLayout
  | simple
  | advanced
  deriving DecidableEq, Repr

def ParquetWriteRequest.layout (request : ParquetWriteRequest) : ParquetLayout :=
  if request.filenameTemplate = none ∧ request.rowCap = none ∧ request.partitionOn = [] ∧
    request.mode ≠ .append then .simple else .advanced

/-- A call that may raise; the numbers are those of the partition and of the file. -/
inductive Point
  | schema
  | inspect
  | readSchema (path : Path)
  | overlap
  | prepare
  | compute (partition : ℕ)
  | group (partition : ℕ)
  | exists (number : ℕ)
  | parent (number : ℕ)
  | convert (number : ℕ)
  | write (number : ℕ)
  | finish
  | rmdir (path : Path)
  deriving DecidableEq, Repr

inductive ParquetError
  | unsafePath (path : Path)
  | duplicateColumns (columns : List Path)
  | unsafeColumn (column : Path)
  | badRowCap
  | badWorkers
  | fileAsDataset (path : Path)
  | unsafeTemplate (template : Path)
  | unknownTokens (tokens : List Path)
  | templateNotUnique (template : Path)
  | targetIsFile (path : Path)
  | targetNotEmpty (path : Path)
  | noDataset (path : Path)
  | noParquetFiles (path : Path)
  | badPartitionValue (column : Path)
  | reservedPartitionValue (column : Path)
  | badFilename (filename : Path)
  | escapesRoot (path : Path)
  | collision (path : Path)
  | appendSimple
  | notParquetFile (path : Path)
  | targetIsDirectory (path : Path)
  | targetExists (path : Path)
  | failed (point : Point)
  deriving DecidableEq, Repr

def rejectIf (bad : Bool) (error : ParquetError) : Except ParquetError Unit :=
  if bad then .error error else .ok ()

lemma rejectIf_eq_ok {bad : Bool} {error : ParquetError} :
    rejectIf bad error = .ok u ↔ bad = false := by
  cases bad with
  | false => exact ⟨fun _ => rfl, fun _ => rfl⟩
  | true => exact ⟨nofun, nofun⟩

structure Texts where
  strip : Path → Path
  lower : Path → Path

def dots (text : Path) : Bool := text = ['.'] || text = ['.', '.']

def isControl (c : Char) : Bool := c.toNat < 32 || (127 ≤ c.toNat && c.toNat < 160)

def forbidden (c : Char) : Bool := c = '/' || c = '\\' || c = '=' || isControl c

def validatePartitionColumns (partitionOn : List Path) : Except ParquetError Unit := do
  let duplicates := partitionOn.eraseDups.filter fun column => 1 < partitionOn.count column
  rejectIf (!duplicates.isEmpty) (.duplicateColumns duplicates)
  partitionOn.forM fun column =>
    rejectIf (column.isEmpty || dots column || column.any forbidden) (.unsafeColumn column)

def validateRequest (t : Texts) (request : ParquetWriteRequest) : Except ParquetError Unit := do
  let rawPath := (t.strip request.path).map fun c => if c = '\\' then '/' else c
  rejectIf (rawPath.isEmpty || rawPath = ['/'] || dots rawPath) (.unsafePath request.path)
  rejectIf (rawPath.head? = some '/' || rawPath.tails.any fun rest => [':', '/', '/'].isPrefixOf rest)
    (.unsafePath request.path)
  rejectIf (((strip '/' rawPath).splitOn '/').any fun part => part.isEmpty || dots part) (.unsafePath request.path)
  validatePartitionColumns request.partitionOn
  rejectIf (request.rowCap = some 0) .badRowCap
  rejectIf (request.writeWorkers = 0) .badWorkers

inductive Segment
  | text (c : Char)
  | token (name : Path)
  deriving DecidableEq

def isIdentStart (c : Char) : Bool := c.isAlpha || c = '_'

def isIdentChar (c : Char) : Bool := c.isAlphanum || c = '_'

def tokenAt (text : Path) : Option (Path × Path) :=
  match text.head?, text.dropWhile isIdentChar with
  | some c, '>' :: rest => if isIdentStart c then some (text.takeWhile isIdentChar, rest) else none
  | _, _ => none

/-- `fuel` is at least the length of the text. -/
def parseTemplate : ℕ → Path → List Segment
  | 0, _ => []
  | _, [] => []
  | fuel + 1, c :: text =>
    if c = '<' then
      match tokenAt text with
      | some (name, rest) => .token name :: parseTemplate fuel rest
      | none => .text c :: parseTemplate fuel text
    else .text c :: parseTemplate fuel text

def tokens (template : List Segment) : List Path :=
  template.filterMap fun
    | .token name => some name
    | .text _ => none

def partitionIndexToken : Path := "partition_index".toList

def incrementToken : Path := "increment".toList

def uuidToken : Path := "uuid".toList

def parquetSuffix : Path := ".parquet".toList

def isParquetName (t : Texts) (name : Path) : Bool := parquetSuffix.isSuffixOf (t.lower name)

def hasSeparator (name : Path) : Bool := name.any fun c => c = '/' || c = '\\' || c.toNat = 0

def filenameTemplate (t : Texts) (raw : Option Path) : Except ParquetError (List Segment) := do
  let resolved := raw.getD "<increment>.parquet".toList
  let stripped := t.strip resolved
  rejectIf (dots stripped || stripped.isEmpty) (.unsafeTemplate resolved)
  let template := if isParquetName t stripped then stripped else stripped ++ parquetSuffix
  let segments := parseTemplate template.length template
  let unknown := (tokens segments).filter fun name =>
    !(name = partitionIndexToken || name = incrementToken || name = uuidToken)
  rejectIf (!unknown.isEmpty) (.unknownTokens unknown)
  rejectIf (hasSeparator template) (.unsafeTemplate template)
  return segments

def validateUniqueness (template : List Segment) (request : ParquetWriteRequest) (sourcePartitions : ℕ) :
    Except ParquetError Unit :=
  let raw := request.filenameTemplate.getD []
  let several := request.rowCap.isSome || !request.partitionOn.isEmpty
  if (tokens template).contains incrementToken || (tokens template).contains uuidToken then .ok ()
  else if request.mode = .append then .error (.templateNotUnique raw)
  else if (tokens template).contains partitionIndexToken then
    rejectIf several (.templateNotUnique raw)
  else rejectIf (1 < sourcePartitions || several) (.templateNotUnique raw)

def pad (n : ℕ) : Path :=
  List.replicate (5 - (Nat.toDigits 10 n).length) '0' ++ Nat.toDigits 10 n

def renderSegment (partitionIndex increment : ℕ) (uuid : Path) : Segment → Path
  | .text c => [c]
  | .token name =>
    if name = partitionIndexToken then pad partitionIndex
    else if name = incrementToken then pad increment
    else uuid

def render (t : Texts) (template : List Segment) (partitionIndex increment : ℕ) (uuid : Path) :
    Except ParquetError Path := do
  let filename := template.flatMap (renderSegment partitionIndex increment uuid)
  rejectIf (filename.isEmpty || dots filename || hasSeparator filename || !isParquetName t filename)
    (.badFilename filename)
  return filename

section

variable {ρ κ τ : Type}

/-- The cast to a text is injective by column. -/
structure Arrow (κ τ : Type) where
  isNull : κ → Bool
  cast : Path → κ → Option τ
  isHiveNull : τ → Bool
  render : Path → τ → Option String
  render_inj : ∀ column v w text, render column v = some text → render column w = some text → v = w

/-- `groupby` partitions the rows by the values of the columns. -/
structure Pandas (ρ κ : Type) where
  value : Path → ρ → κ
  groupby : List Path → List ρ → List (List κ × List ρ)
  groupby_perm : ∀ columns rows, ((groupby columns rows).flatMap Prod.snd).Perm rows
  groupby_key : ∀ columns rows, ∀ group ∈ groupby columns rows, ∀ row ∈ group.2,
    group.1 = columns.map fun column => value column row

def hiveNull : String := "__HIVE_DEFAULT_PARTITION__"

variable (arrow : Arrow κ τ) (pandas : Pandas ρ κ)

def normalizePartitionValue (column : Path) (value : κ) : Except ParquetError (Option τ) :=
  if arrow.isNull value then .ok none
  else
    match arrow.cast column value with
    | none => .error (.badPartitionValue column)
    | some normalized =>
      if arrow.isHiveNull normalized then .error (.reservedPartitionValue column) else .ok (some normalized)

def renderHivePartitionValue (column : Path) : Option τ → Except ParquetError Path
  | none => .ok hiveNull.toList
  | some value =>
    match arrow.render column value with
    | none => .error (.badPartitionValue column)
    | some rendered =>
      if rendered = hiveNull then .error (.reservedPartitionValue column) else .ok (quote rendered)

def normalizeValues : List Path → List κ → Except ParquetError (List (Option τ))
  | column :: columns, value :: values => do
    let normalized ← normalizePartitionValue arrow column value
    let rest ← normalizeValues columns values
    return normalized :: rest
  | _, _ => .ok []

def directoryNames : List Path → List (Option τ) → Except ParquetError (List Path)
  | column :: columns, value :: values => do
    let rendered ← renderHivePartitionValue arrow column value
    let rest ← directoryNames columns values
    return (column ++ '=' :: rendered) :: rest
  | _, _ => .ok []

def relativeDir (columns : List Path) (key : List κ) : Except ParquetError Path := do
  let values ← normalizeValues arrow columns key
  let names ← directoryNames arrow columns values
  return joinSegments '/' names

def splitChunks (rowCap : Option ℕ) (rows : List ρ) : List (List ρ) :=
  match rowCap with
  | none => if rows.isEmpty then [] else [rows]
  | some cap => chunks cap rows

def partitionValues (columns : List Path) (row : ρ) : Except ParquetError (List (Option τ)) :=
  normalizeValues arrow columns (columns.map fun column => pandas.value column row)

variable {arrow} {rowCap : Option ℕ}

lemma flatten_splitChunks (hcap : rowCap ≠ some 0) (rows : List ρ) :
    (splitChunks rowCap rows).flatten = rows := by
  cases rowCap with
  | none => cases rows <;> simp [splitChunks]
  | some cap => exact flatten_chunks (Nat.pos_of_ne_zero fun h => hcap (congrArg some h)) rows

variable {rows chunk : List ρ}

lemma renderHivePartitionValue_inj {column : Path} {v w : Option τ} {text : Path}
    (hv : renderHivePartitionValue arrow column v = .ok text)
    (hw : renderHivePartitionValue arrow column w = .ok text) : v = w := by
  have hs : ∀ x : τ, ∀ text', renderHivePartitionValue arrow column (some x) = .ok text' →
      ∃ rendered, arrow.render column x = some rendered ∧ rendered ≠ hiveNull ∧ quote rendered = text' := by
    intro x text' hx
    rw [renderHivePartitionValue] at hx
    split at hx
    · exact nomatch hx
    · next rendered hr =>
      split at hx
      · exact nomatch hx
      · next hne => exact ⟨rendered, hr, hne, Except.ok.inj hx⟩
  have hn : ∀ x : τ, renderHivePartitionValue arrow column none = .ok text →
      renderHivePartitionValue arrow column (some x) ≠ .ok text := by
    intro x hnone hx
    obtain ⟨rendered, -, hne, hq⟩ := hs x text hx
    refine hne (quote_injective ?_)
    rw [hq, show quote hiveNull = hiveNull.toList by decide +kernel]
    exact (Except.ok.inj hnone).symm
  cases v with
  | none =>
    cases w with
    | none => rfl
    | some w => exact absurd hw (hn w hv)
  | some v =>
    cases w with
    | none => exact absurd hv (hn v hw)
    | some w =>
      obtain ⟨rendered, hr, -, hq⟩ := hs v text hv
      obtain ⟨rendered', hr', -, hq'⟩ := hs w text hw
      obtain rfl := quote_injective (hq.trans hq'.symm)
      exact congrArg some (arrow.render_inj column v w rendered hr hr')

variable {columns : List Path} {names : List Path}

lemma directoryNames_inj {vs ws : List (Option τ)}
    (hvs : vs.length = columns.length) (hws : ws.length = columns.length)
    (hv : directoryNames arrow columns vs = .ok names) (hw : directoryNames arrow columns ws = .ok names) :
    vs = ws := by
  induction columns generalizing vs ws names with
  | nil => rw [length_eq_zero_iff.mp hvs, length_eq_zero_iff.mp hws]
  | cons column columns ih =>
    obtain ⟨v, vs, rfl⟩ := exists_cons_of_length_eq_add_one hvs
    obtain ⟨w, ws, rfl⟩ := exists_cons_of_length_eq_add_one hws
    obtain ⟨text, htext, hv⟩ := bind_eq_ok.mp hv
    obtain ⟨rest, hrest, hv⟩ := bind_eq_ok.mp hv
    obtain ⟨text', htext', hw⟩ := bind_eq_ok.mp hw
    obtain ⟨rest', hrest', hw⟩ := bind_eq_ok.mp hw
    obtain ⟨hname, hr⟩ := List.cons.inj ((Except.ok.inj hv).trans (Except.ok.inj hw).symm)
    obtain ⟨-, ht⟩ := List.cons.inj (append_cancel_left hname)
    subst ht hr
    rw [renderHivePartitionValue_inj htext htext', ih (Nat.succ.inj hvs) (Nat.succ.inj hws) hrest hrest']

variable {values : List (Option τ)}

lemma length_normalizeValues {key : List κ}
    (hkey : key.length = columns.length) (h : normalizeValues arrow columns key = .ok values) :
    values.length = columns.length := by
  induction columns generalizing key values with
  | nil =>
    rw [← Except.ok.inj h]
    rfl
  | cons column columns ih =>
    obtain ⟨value, key, rfl⟩ := exists_cons_of_length_eq_add_one hkey
    obtain ⟨normalized, -, h⟩ := bind_eq_ok.mp h
    obtain ⟨rest, hr, h⟩ := bind_eq_ok.mp h
    rw [← Except.ok.inj h, length_cons, length_cons, ih (Nat.succ.inj hkey) hr]

def IsColumn (column : Path) : Prop := column ≠ [] ∧ '/' ∉ column

lemma isSegment_of_mem_directoryNames
    (hc : ∀ column ∈ columns, IsColumn column) (h : directoryNames arrow columns values = .ok names) :
    ∀ name ∈ names, IsSegment '/' name := by
  induction columns generalizing values names with
  | nil =>
    obtain rfl := Except.ok.inj h
    exact nofun
  | cons column columns ih =>
    cases values with
    | nil =>
      obtain rfl := Except.ok.inj h
      exact nofun
    | cons value values =>
      obtain ⟨text, ht, h⟩ := bind_eq_ok.mp h
      obtain ⟨rest, hr, h⟩ := bind_eq_ok.mp h
      obtain rfl := Except.ok.inj h
      have hs : '/' ∉ text := by
        cases value with
        | none =>
          rw [← Except.ok.inj ht]
          decide
        | some value =>
          rw [renderHivePartitionValue] at ht
          split at ht
          · exact nomatch ht
          · split at ht
            · exact nomatch ht
            · rw [← Except.ok.inj ht]
              intro h
              obtain ⟨b, -, hb⟩ := mem_flatMap.mp h
              exact slash_notMem_percentByte b hb
      obtain ⟨hne, hcol⟩ := hc column mem_cons_self
      intro name hname
      rcases mem_cons.mp hname with rfl | hname
      · refine ⟨fun hnil => hne (append_eq_nil_iff.mp hnil).1, fun hmem => ?_⟩
        rcases mem_append.mp hmem with hmem | hmem
        · exact hcol hmem
        · exact (mem_cons.mp hmem).elim (by decide) hs
      · exact ih (fun column hmem => hc column (mem_cons_of_mem _ hmem)) hr name hname

end

lemma isColumn_of_validatePartitionColumns {partitionOn : List Path}
    (h : validatePartitionColumns partitionOn = .ok u) : ∀ column ∈ partitionOn, IsColumn column := by
  obtain ⟨_, -, h⟩ := bind_eq_ok.mp h
  clear * - h
  induction partitionOn with
  | nil => exact nofun
  | cons column columns ih =>
    obtain ⟨_, hc, h⟩ := bind_eq_ok.mp h
    intro column' hmem
    rcases mem_cons.mp hmem with rfl | hmem
    · rw [rejectIf_eq_ok, Bool.or_eq_false_iff, Bool.or_eq_false_iff] at hc
      refine ⟨fun hnil => ?_, fun hs => ?_⟩
      · rw [hnil] at hc
        exact nomatch hc.1.1
      · exact any_eq_false.mp hc.2 '/' hs (by decide)
    · exact ih h column' hmem

lemma isSegment_of_render {t : Texts} {template : List Segment} {partitionIndex increment : ℕ}
    {uuid filename : Path} (h : render t template partitionIndex increment uuid = .ok filename) :
    IsSegment '/' filename := by
  obtain ⟨_, hc, h⟩ := bind_eq_ok.mp h
  rw [Except.ok.inj h, rejectIf_eq_ok] at hc
  simp only [Bool.or_eq_false_iff] at hc
  refine ⟨fun hnil => ?_, fun hs => ?_⟩
  · rw [hnil] at hc
    exact nomatch hc.1.1.1
  · exact any_eq_false.mp hc.1.2 '/' hs (by decide)

end Dvt.Parquet
