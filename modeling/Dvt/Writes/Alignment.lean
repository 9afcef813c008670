import Dvt.Library.Sql
import Dvt.Library.Folds

/-! How the columns of a partition are aligned to the columns of a table. -/

namespace Dvt.Writes

open List

open Library Library.Sql

inductive WriteMode
  | append
  | truncate
  | upsert
  deriving DecidableEq, Repr

inductive ExtraColumnsMode
  | ignore
  | error
  deriving DecidableEq, Repr

inductive MissingColumnsMode
  | ignore
  | ignoreIfDefault
  | error
  deriving DecidableEq, Repr

structure WriteColumnMapping where
  sourceName : String
  targetName : String

structure WriteRequest where
  mode : WriteMode
  chunksize : Option ℕ
  upsert : Option String
  onExtraDfColumns : ExtraColumnsMode
  onMissingDfColumns : MissingColumnsMode
  columnMapping : List WriteColumnMapping
  chunksize_pos : ∀ n, chunksize = some n → 0 < n
  upsert_isSome : upsert.isSome ↔ mode = .upsert
  nodup_sources : (columnMapping.map (·.sourceName)).Nodup

structure Column where
  name : String
  nullable : Bool
  serverDefault : Bool
  default : Bool
  autoincrement : Bool
  primaryKey : Bool
  numeric : Bool

structure Table where
  schema : Option String
  name : String
  columns : List Column

def Table.columnNames (table : Table) : List String := table.columns.map (·.name)

structure Texts where
  strip : String → String
  lower : String → String
  isAscii : String → Bool
  ru2en : String → String

structure FrameRow (V : Type) where
  level : ℕ → Option V
  cell : Row V

structure Frame (V : Type) where
  index : List (Option String)
  columns : List String
  rows : List (FrameRow V)

variable {V : Type} (t : Texts)

def isInternalDvtName (name : String) : Bool :=
  "__dvt_".toList.isPrefixOf (t.lower (t.strip name)).toList

def resetLevel (working : Frame V) : Option String × ℕ → Frame V
  | (none, _) => working
  | (some name, level) =>
    if isInternalDvtName t name || working.columns.contains name then working
    else
      { working with
        columns := name :: working.columns
        rows := working.rows.map fun row =>
          { row with cell := Function.update row.cell name (row.level level) } }

def normalizeIndexForDbWrite (frame : Frame V) : Frame V :=
  frame.index.zipIdx.reverse.foldl (resetLevel t) frame

def dropInternalDvtColumns (frame : Frame V) : Frame V :=
  { frame with columns := frame.columns.filter fun column => !isInternalDvtName t column }

def canOmitTableColumn (column : Column) : Bool :=
  column.nullable || column.serverDefault || column.default || column.autoincrement || column.primaryKey

inductive AlignError
  | duplicateTargets (names : List String)
  | caseMismatch (pairs : List (String × String))
  | extraColumns (names : List String)
  | upsertKeyNotInTable (key : String)
  | upsertKeyNotInFrame (key : String)
  | missingColumns (names : List String)
  | missingRequired (names : List String)
  | noMatchingColumns (dataframe table : List String)
  | nonNullableNumericNulls (names : List String)
  deriving DecidableEq, Repr

inductive WriteDiagnostic
  | extraColumnsIgnored (columns : List String)
  | missingColumnsIgnored (columns : List String) (policy : MissingColumnsMode)
  | defaultOnlyInsert (policy : MissingColumnsMode)
  deriving DecidableEq, Repr

def rejectIf (bad : Prop) [Decidable bad] (error : AlignError) : Except AlignError Unit :=
  if bad then .error error else .ok ()

lemma rejectIf_eq_ok {bad : Prop} [Decidable bad] {error : AlignError} {u : Unit} :
    rejectIf bad error = .ok u ↔ ¬ bad := by
  rw [rejectIf]
  split <;> simp_all

def renamed (renameMap : List (String × String)) (name : String) : String :=
  (renameMap.lookup name).getD name

def buildDeclaredRenameMap (dataframe table : List String) (request : WriteRequest) :
    List (String × String) :=
  request.columnMapping.filterMap fun mapping =>
    if dataframe.contains mapping.sourceName && table.contains mapping.targetName &&
        mapping.sourceName != mapping.targetName
    then some (mapping.sourceName, mapping.targetName)
    else none

def transliterate (table : List String) (renameMap : List (String × String)) (source : String) :
    List (String × String) :=
  if (renameMap.lookup source).isSome || table.contains source || t.isAscii source then renameMap
  else if t.ru2en source = "" || t.ru2en source = source || !table.contains (t.ru2en source) then
    renameMap
  else renameMap ++ [(source, t.ru2en source)]

def buildRuntimeRenameMap (dataframe : List String) (table : Table) (request : WriteRequest) :
    Except AlignError (List (String × String)) :=
  let renameMap := dataframe.foldl (transliterate t table.columnNames)
    (buildDeclaredRenameMap dataframe table.columnNames request)
  let resolved := dataframe.map (renamed renameMap)
  let duplicates := resolved.eraseDups.filter fun name => 1 < resolved.count name
  if duplicates = [] then .ok renameMap else .error (.duplicateTargets duplicates)

def caseMismatchMap (dataframe : List String) (table : Table) : List (String × String) :=
  table.columnNames.filterMap fun column =>
    if dataframe.contains column then none
    else (dataframe.reverse.find? fun name => t.lower name = t.lower column).map (column, ·)

def checkUpsertKey (dataframe : List String) (table : Table) (request : WriteRequest) :
    Except AlignError Unit :=
  match request.mode, request.upsert with
  | .upsert, some key =>
    if !table.columnNames.contains key then .error (.upsertKeyNotInTable key)
    else if !dataframe.contains key then .error (.upsertKeyNotInFrame key)
    else .ok ()
  | _, _ => .ok ()

structure ColumnPlan where
  renameMap : List (String × String)
  extraColumns : List String
  missingColumns : List String
  insertColumnNames : List String

def alignColumns (dataframe : List String) (table : Table) (request : WriteRequest) :
    Except AlignError ColumnPlan := do
  let renameMap ← buildRuntimeRenameMap t dataframe table request
  let working := dataframe.map (renamed renameMap)
  let mismatches := caseMismatchMap t working table
  rejectIf (mismatches ≠ []) (.caseMismatch mismatches)
  let extraColumns := working.filter fun column => !table.columnNames.contains column
  rejectIf (extraColumns ≠ [] ∧ request.onExtraDfColumns = .error) (.extraColumns extraColumns)
  let working := working.filter table.columnNames.contains
  checkUpsertKey working table request
  let missingColumns := table.columnNames.filter fun column => !working.contains column
  rejectIf (missingColumns ≠ [] ∧ request.onMissingDfColumns = .error) (.missingColumns missingColumns)
  let missingRequired := (table.columns.filter fun column =>
    missingColumns.contains column.name && !canOmitTableColumn column).map (·.name)
  rejectIf (request.onMissingDfColumns = .ignoreIfDefault ∧ missingRequired ≠ [])
    (.missingRequired missingRequired)
  return ⟨renameMap, extraColumns, missingColumns, table.columnNames.filter working.contains⟩

structure ColumnAlignment (V : Type) where
  normalized : List (Row V)
  insertColumnNames : List String
  rowCount : ℕ
  diagnostics : List WriteDiagnostic
  defaultOnlyInsert : Bool

def normalizedRow (dataframe : List String) (plan : ColumnPlan) (row : FrameRow V) : Row V := fun name =>
  if plan.insertColumnNames.contains name then
    (dataframe.find? fun source => renamed plan.renameMap source = name).bind row.cell
  else none

def nonNullableNumericNulls (table : Table) (plan : ColumnPlan) (rows : List (Row V)) : List String :=
  (table.columns.filter fun column => plan.insertColumnNames.contains column.name && !column.nullable &&
    column.numeric && rows.any fun row => (row column.name).isNone).map (·.name)

def diagnostics (request : WriteRequest) (plan : ColumnPlan) (defaultOnly : Bool) :
    List WriteDiagnostic :=
  (if plan.extraColumns ≠ [] ∧ request.onExtraDfColumns = .ignore then
    [.extraColumnsIgnored plan.extraColumns] else []) ++
  (if plan.missingColumns ≠ [] ∧ request.onMissingDfColumns ≠ .error then
    [.missingColumnsIgnored plan.missingColumns request.onMissingDfColumns] else []) ++
  if defaultOnly then [.defaultOnlyInsert request.onMissingDfColumns] else []

def alignPartitionToTable (pdf : Frame V) (table : Table) (request : WriteRequest)
    (includeDefaultOnlyDiagnostic : Bool) : Except AlignError (ColumnAlignment V) := do
  let working := dropInternalDvtColumns t (normalizeIndexForDbWrite t pdf)
  let plan ← alignColumns t working.columns table request
  rejectIf (working.rows ≠ [] ∧ working.columns ≠ [] ∧ plan.insertColumnNames = [])
    (.noMatchingColumns working.columns table.columnNames)
  let normalized := working.rows.map (normalizedRow working.columns plan)
  let nulls := nonNullableNumericNulls table plan normalized
  rejectIf (nulls ≠ []) (.nonNullableNumericNulls nulls)
  let defaultOnly := !working.rows.isEmpty && plan.insertColumnNames.isEmpty
  return {
    normalized
    insertColumnNames := plan.insertColumnNames
    rowCount := working.rows.length
    diagnostics := diagnostics request plan (defaultOnly && includeDefaultOnlyDiagnostic)
    defaultOnlyInsert := defaultOnly }

variable {t}

lemma exists_foldl_resetLevel (levels : List (Option String × ℕ)) (index : List (Option String))
    (columns : List String) : ∃ (columns' : List String) (f : FrameRow V → FrameRow V), ∀ rows,
      levels.foldl (resetLevel t) ⟨index, columns, rows⟩ = ⟨index, columns', rows.map f⟩ := by
  induction levels generalizing columns with
  | nil => exact ⟨columns, id, fun rows => by simp⟩
  | cons level levels ih =>
    obtain ⟨name, level⟩ := level
    cases name with
    | none => exact ih columns
    | some name =>
      by_cases hd : (isInternalDvtName t name || columns.contains name) = true
      · obtain ⟨columns', f, hf⟩ := ih columns
        refine ⟨columns', f, fun rows => ?_⟩
        rw [foldl_cons, resetLevel, if_pos hd, hf]
      · obtain ⟨columns', f, hf⟩ := ih (name :: columns)
        refine ⟨columns', fun row =>
          f { row with cell := Function.update row.cell name (row.level level) }, fun rows => ?_⟩
        rw [foldl_cons, resetLevel, if_neg hd, hf, map_map]
        rfl

lemma exists_working (index : List (Option String)) (columns : List String) :
    ∃ (columns' : List String) (f : FrameRow V → FrameRow V), ∀ rows,
      dropInternalDvtColumns t (normalizeIndexForDbWrite t ⟨index, columns, rows⟩) =
        ⟨index, columns', rows.map f⟩ := by
  obtain ⟨columns', f, hf⟩ := exists_foldl_resetLevel (t := t) (V := V) index.zipIdx.reverse index columns
  refine ⟨columns'.filter fun column => !isInternalDvtName t column, f, fun rows => ?_⟩
  rw [normalizeIndexForDbWrite, hf]
  rfl

variable {staging : Table} {request : WriteRequest} {plan : ColumnPlan}

lemma alignColumns_of_canOmit {dataframe : List String} {table : Table}
    (hn : staging.columnNames = table.columnNames)
    (ho : ∀ column ∈ staging.columns, canOmitTableColumn column = true)
    (h : alignColumns t dataframe table request = .ok plan) :
    alignColumns t dataframe staging request = .ok plan := by
  have hr : ∀ missing : List String, (staging.columns.filter fun column =>
      missing.contains column.name && !canOmitTableColumn column) = [] := by
    intro missing
    rw [filter_eq_nil_iff]
    intro column hc
    simp [ho column hc]
  simp only [alignColumns, buildRuntimeRenameMap, caseMismatchMap, checkUpsertKey, hn, hr] at h ⊢
  simp only [bind_eq_ok] at h
  obtain ⟨renameMap, hmap, _, hcase, _, he, _, hkey, _, hm, _, -, h⟩ := h
  refine bind_eq_ok.mpr ⟨renameMap, hmap, ?_⟩
  refine bind_eq_ok.mpr ⟨_, hcase, ?_⟩
  refine bind_eq_ok.mpr ⟨_, he, ?_⟩
  refine bind_eq_ok.mpr ⟨_, hkey, ?_⟩
  refine bind_eq_ok.mpr ⟨_, hm, ?_⟩
  exact bind_eq_ok.mpr ⟨(), rejectIf_eq_ok.mpr fun hreq => hreq.2 rfl, h⟩

lemma alignPartition_of_nullable {index : List (Option String)} {columns columns' : List String}
    {f : FrameRow V → FrameRow V}
    (hw : ∀ rows, dropInternalDvtColumns t (normalizeIndexForDbWrite t ⟨index, columns, rows⟩) =
      ⟨index, columns', rows.map f⟩)
    (hn : ∀ column ∈ staging.columns, column.nullable = true)
    (hplan : alignColumns t columns' staging request = .ok plan)
    (rows : List (FrameRow V)) (noted : Bool) :
    alignPartitionToTable t ⟨index, columns, rows⟩ staging request noted =
      if rows ≠ [] ∧ columns' ≠ [] ∧ plan.insertColumnNames = [] then
        .error (.noMatchingColumns columns' staging.columnNames)
      else .ok
        { normalized := rows.map fun row => normalizedRow columns' plan (f row)
          insertColumnNames := plan.insertColumnNames
          rowCount := rows.length
          diagnostics := diagnostics request plan
            ((!rows.isEmpty && plan.insertColumnNames.isEmpty) && noted)
          defaultOnlyInsert := !rows.isEmpty && plan.insertColumnNames.isEmpty } := by
  have hnul : ∀ rows : List (Row V), nonNullableNumericNulls staging plan rows = [] := by
    intro rows
    rw [nonNullableNumericNulls, map_eq_nil_iff, filter_eq_nil_iff]
    intro column hc
    simp [hn column hc]
  simp only [alignPartitionToTable, hw, hplan, bind, Except.bind, hnul, map_map, ne_eq,
    map_eq_nil_iff, length_map, isEmpty_map, rejectIf]
  by_cases hno : ¬ rows = [] ∧ ¬ columns' = [] ∧ plan.insertColumnNames = []
  · rw [if_pos hno, if_pos hno]
  · rw [if_neg hno, if_neg hno]
    rfl

end Dvt.Writes
