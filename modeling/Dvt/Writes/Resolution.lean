import Dvt.Writes.Alignment
import Mathlib.Data.List.Sort
import Mathlib.Data.String.Basic

/-! The preview of a write: which table column each dataframe column goes to. -/

namespace Dvt.Writes

open List

open Library

variable {name : String}

inductive DataType
  | int | float | string | boolean | datetime | timedelta | category | dictionary | object | unknown
  | binary | list | struct
  deriving DecidableEq, Repr

def DataType.value : DataType → String
  | .int => "INT"
  | .float => "FLOAT"
  | .string => "STRING"
  | .boolean => "BOOLEAN"
  | .datetime => "DATETIME"
  | .timedelta => "TIMEDELTA"
  | .category => "CATEGORY"
  | .dictionary => "DICTIONARY"
  | .object => "OBJECT"
  | .unknown => "UNKNOWN"
  | .binary => "BINARY"
  | .list => "LIST"
  | .struct => "STRUCT"

structure DBColumn where
  name : String
  comment : Option String := none
  dtype : DataType
  nullable : Option Bool := none
  index : Option Bool := none
  deriving DecidableEq

structure TableColumn extends Column where
  type : String
  comment : Option String

structure ReflectedTable where
  schema : Option String
  name : String
  columns : List TableColumn
  nodup_names : (columns.map (·.name)).Nodup

structure ColumnMapping extends WriteColumnMapping where
  dtype : Option DataType
  nullable : Option Bool

inductive ActionType
  | addColumn
  | dropColumn
  | recreateColumn
  deriving DecidableEq

structure TableColumnAction where
  type : ActionType
  columnName : String
  column : Option DBColumn
  deriving DecidableEq

inductive ColumnStatus
  | matches | explicitMapping | autoTransliterated | normalizedTarget | caseResolved | missingInDb
  | missingInDataframe | typeMismatch | duplicateEffectiveTarget | internalColumnIgnored | invalid
  deriving DecidableEq, Repr

structure ResolutionRow where
  sourceComment : Option String := none
  dbComment : Option String := none
  sourceName : Option String
  requestedTargetName : Option String
  effectiveTargetName : Option String
  dbName : Option String
  dtype : String
  nullable : Option Bool
  sourceDtype : Option String
  dbDtype : Option String
  sourceNullable : Option Bool
  dbNullable : Option Bool
  status : ColumnStatus
  reason : String
  suggestedAction : Option TableColumnAction

inductive ResolutionDiagnostic
  | duplicateMappingSources (sourceNames : List String)
  | duplicateEffectiveTargets (targetNames : List String)
  | extraColumnsError (columns : List (Option String))
  | missingColumnsIgnored (columns : List String) (policy : MissingColumnsMode)
  | missingColumnsError (columns : List String)

structure ResolutionResult where
  effectiveColumnMapping : List ColumnMapping
  columns : List ResolutionRow
  diagnostics : List ResolutionDiagnostic

inductive NameError
  | mappingNameEmpty
  | columnNameEmpty
  deriving DecidableEq

namespace ReflectedTable

variable (table : ReflectedTable)

def columnNames : List String := table.columns.map (·.name)

def column? (name : String) : Option TableColumn := table.columns.find? (·.name = name)

end ReflectedTable

/-- The arguments of the preview. -/
structure Preview where
  texts : Texts
  dataTypeOf : String → DataType
  table : ReflectedTable
  metadata : List DBColumn
  columnMapping : List ColumnMapping
  onExtraDfColumns : ExtraColumnsMode
  onMissingDfColumns : MissingColumnsMode

section

variable (t : Texts) (dataTypeOf : String → DataType) (table : ReflectedTable)

def tableColumnAction (type : ActionType) (columnName : String) (column : Option DBColumn) :
    TableColumnAction := ⟨type, t.strip columnName, column⟩

def uniqueLowerName (names : List String) (lowered : String) : Option String :=
  if (names.map t.lower).count lowered = 1 then names.find? (t.lower · = lowered) else none

def caseColumn (requestedTargetName : String) : Option TableColumn :=
  (uniqueLowerName t table.columnNames (t.lower requestedTargetName)).bind fun name =>
    if name = "" then none else table.column? name

def sortedNames (names : List String) : List String := names.dedup.insertionSort (· ≤ ·)

def isTypeMismatch (source db : DataType) : Bool := source ≠ .unknown && db ≠ .unknown && source ≠ db

def matchedExistingRow (sourceName requestedTargetName : String) (column : TableColumn)
    (sourceColumn : DBColumn) (status : ColumnStatus) (reason : String) : ResolutionRow :=
  let mismatch := isTypeMismatch sourceColumn.dtype (dataTypeOf column.type)
  { sourceName, requestedTargetName, effectiveTargetName := column.name, dbName := column.name
    dtype := column.type, nullable := column.nullable
    sourceDtype := sourceColumn.dtype.value, dbDtype := column.type
    sourceNullable := sourceColumn.nullable, dbNullable := column.nullable
    sourceComment := sourceColumn.comment, dbComment := column.comment
    status := if mismatch then .typeMismatch else status
    reason := if mismatch then "DataFrame column type " ++ sourceColumn.dtype.value ++
      " differs from target table column type " ++ (dataTypeOf column.type).value ++ "." else reason
    suggestedAction := if mismatch then tableColumnAction t .recreateColumn column.name
      (some { sourceColumn with name := column.name, comment := column.comment }) else none }

def missingInDbRow (sourceName requestedTargetName : String) (sourceColumn : DBColumn) :
    ResolutionRow where
  sourceName := sourceName
  requestedTargetName := requestedTargetName
  effectiveTargetName := none
  dbName := none
  dtype := sourceColumn.dtype.value
  nullable := sourceColumn.nullable
  sourceDtype := sourceColumn.dtype.value
  dbDtype := none
  sourceNullable := sourceColumn.nullable
  dbNullable := none
  sourceComment := sourceColumn.comment
  status := .missingInDb
  reason := "No target table column matches the requested or normalized name."
  suggestedAction := tableColumnAction t .addColumn requestedTargetName sourceColumn

def normalizedColumn (requestedTargetName : String) : Option TableColumn :=
  if t.ru2en requestedTargetName = requestedTargetName then none
  else table.column? (t.ru2en requestedTargetName)

def transliteratedColumn (sourceName : String) : Option TableColumn :=
  if t.isAscii sourceName ∨ t.ru2en sourceName = "" then none else table.column? (t.ru2en sourceName)

def resolveTarget (sourceName requestedTargetName : String) (hasExplicitMapping : Bool) :
    Option (TableColumn × ColumnStatus × String) :=
  match table.column? requestedTargetName with
  | some exact => some (exact,
    if hasExplicitMapping then (.explicitMapping, "Explicit target name matches the target table.")
    else (.matches, "DataFrame column name matches the target table."))
  | none =>
    match if hasExplicitMapping then normalizedColumn t table requestedTargetName
      else transliteratedColumn t table sourceName with
    | some column => some (column,
      if hasExplicitMapping then
        (.normalizedTarget, "Explicit target name was normalized to an existing table column.")
      else (.autoTransliterated,
        "DataFrame column was auto-transliterated to an existing table column."))
    | none => (caseColumn t table requestedTargetName).map fun column => (column, .caseResolved,
      if hasExplicitMapping then "Explicit target name was resolved to the exact target table case."
      else "Column name was resolved to the exact target table case.")

def resolveExistingColumnRow (sourceName requestedTargetName : String) (sourceColumn : DBColumn)
    (hasExplicitMapping : Bool) : ResolutionRow :=
  match resolveTarget t table sourceName requestedTargetName hasExplicitMapping with
  | some (column, status, reason) =>
    matchedExistingRow t dataTypeOf sourceName requestedTargetName column sourceColumn status reason
  | none => missingInDbRow t sourceName requestedTargetName sourceColumn

def buildRequestedDbColumn (sourceColumn : DBColumn) (requestedTargetName : String)
    (mapping : Option ColumnMapping) : DBColumn :=
  { sourceColumn with
    name := requestedTargetName
    dtype := (mapping.bind (·.dtype)).getD sourceColumn.dtype
    nullable := (mapping.bind (·.nullable)).or sourceColumn.nullable }

def resolveColumn (p : Preview) (sourceColumn : DBColumn) : ResolutionRow :=
  let mapping := p.columnMapping.find? (·.sourceName = sourceColumn.name)
  let requestedTargetName := mapping.elim sourceColumn.name (·.targetName)
  resolveExistingColumnRow p.texts p.dataTypeOf p.table sourceColumn.name requestedTargetName
    (buildRequestedDbColumn sourceColumn requestedTargetName mapping) mapping.isSome

def duplicateSources (columnMapping : List ColumnMapping) : List ResolutionDiagnostic :=
  let sources := columnMapping.map (·.sourceName)
  let duplicates := sources.filter fun name => 1 < sources.count name
  if duplicates = [] then [] else [.duplicateMappingSources (sortedNames duplicates)]

def duplicateNames (rows : List ResolutionRow) : List String :=
  let resolved := (rows.filterMap (·.effectiveTargetName)).map t.lower
  resolved.filter fun name => 1 < resolved.count name

def isDuplicated (names : List String) (name : String) : Bool :=
  name ≠ "" && names.contains (t.lower name)

def markRow (names : List String) (row : ResolutionRow) : ResolutionRow :=
  if row.effectiveTargetName.any (isDuplicated t names) then
    { row with
      status := .duplicateEffectiveTarget
      reason := "Resolved target name is duplicated by another DataFrame column."
      suggestedAction := none }
  else row

def markDuplicateEffectiveTargets (rows : List ResolutionRow) (diagnostics : List ResolutionDiagnostic) :
    List ResolutionRow × List ResolutionDiagnostic :=
  let names := duplicateNames t rows
  if names = [] then (rows, diagnostics)
  else (rows.map (markRow t names), diagnostics ++ [.duplicateEffectiveTargets
    (sortedNames ((rows.filterMap (·.effectiveTargetName)).filter (isDuplicated t names)))])

def usedTargetNames (rows : List ResolutionRow) : List String :=
  (rows.filter fun row => row.status ≠ .duplicateEffectiveTarget).filterMap (·.effectiveTargetName)

def missingInDataframeRow (column : TableColumn) : ResolutionRow where
  sourceName := none
  dbComment := column.comment
  requestedTargetName := none
  effectiveTargetName := none
  dbName := column.name
  dtype := column.type
  nullable := column.nullable
  sourceDtype := none
  dbDtype := column.type
  sourceNullable := none
  dbNullable := column.nullable
  status := .missingInDataframe
  reason := "Target table column is not resolved from any DataFrame column."
  suggestedAction := tableColumnAction t .dropColumn column.name none

def effectiveNames (row : ResolutionRow) : Option (String × String) :=
  match row.sourceName, row.effectiveTargetName with
  | some source, some target =>
    if source = "" ∨ target = "" ∨ row.status ∈ [.missingInDb, .missingInDataframe, .typeMismatch,
        .duplicateEffectiveTarget, .invalid] then none
    else some (source, target)
  | _, _ => none

/-- `WriteColumnMapping` strips the names. -/
def effectiveMapping (row : ResolutionRow) : Option ColumnMapping :=
  (effectiveNames row).map fun names =>
    ⟨⟨t.strip names.1, t.strip names.2⟩, dataTypeOf row.dtype, row.nullable⟩

def buildResult (rows : List ResolutionRow) (diagnostics : List ResolutionDiagnostic) :
    Except NameError ResolutionResult :=
  let mapping := rows.filterMap (effectiveMapping t dataTypeOf)
  if mapping.any fun m => m.sourceName = "" || m.targetName = "" then .error .mappingNameEmpty
  else .ok ⟨mapping, rows, diagnostics⟩

variable (p : Preview)

def Preview.dataframeColumns : List DBColumn :=
  p.metadata.filter fun column => !isInternalDvtName p.texts column.name

def resolveExistingTableWriteColumns : Except NameError ResolutionResult :=
  let rows := p.dataframeColumns.map (resolveColumn p)
  let marked := markDuplicateEffectiveTargets p.texts rows (duplicateSources p.columnMapping)
  let extra := (marked.1.filter fun row => row.status = .missingInDb).map (·.sourceName)
  let missing := p.table.columns.filter fun column => !(usedTargetNames marked.1).contains column.name
  let names := missing.map (·.name)
  let missingRows := missing.map (missingInDataframeRow p.texts)
  -- the actions are validated where the rows are made, before any row is marked
  if (rows ++ missingRows).any fun row => row.suggestedAction.any (·.columnName = "") then
    .error .columnNameEmpty
  else buildResult p.texts p.dataTypeOf (marked.1 ++ missingRows) (marked.2 ++
    (if extra ≠ [] ∧ p.onExtraDfColumns = .error then [.extraColumnsError extra] else []) ++
    (if names ≠ [] then [.missingColumnsIgnored names p.onMissingDfColumns] else []) ++
    if names ≠ [] ∧ p.onMissingDfColumns = .error then [.missingColumnsError names] else [])

end

variable {t : Texts} {table : ReflectedTable}
  {sourceName requestedTargetName : String} {column : TableColumn} {explicit : Bool}
  {p : Preview} {source : DBColumn}
  {rows : List ResolutionRow} {row : ResolutionRow} {names : List String}

lemma column?_eq_some (h : table.column? name = some column) :
    column ∈ table.columns ∧ column.name = name :=
  ⟨mem_of_find?_eq_some h, by simpa using find?_some h⟩

lemma caseColumn_eq_some (h : caseColumn t table name = some column) :
    column ∈ table.columns ∧ t.lower column.name = t.lower name := by
  obtain ⟨found, hf, h⟩ := Option.bind_eq_some_iff.mp h
  rw [uniqueLowerName] at hf
  split_ifs at h hf
  obtain ⟨hmem, rfl⟩ := column?_eq_some h
  exact ⟨hmem, by simpa using find?_some hf⟩

lemma resolveTarget_eq_some {status : ColumnStatus} {reason : String}
    (h : resolveTarget t table sourceName requestedTargetName explicit = some (column, status, reason)) :
    column ∈ table.columns ∧
      status ∉ [.missingInDb, .missingInDataframe, .duplicateEffectiveTarget, .invalid] := by
  rw [resolveTarget, normalizedColumn, transliteratedColumn] at h
  split at h
  · next he => grind [column?_eq_some he]
  · split at h
    · next ho => grind [column?_eq_some]
    · obtain ⟨column, hc, heq⟩ := Option.map_eq_some_iff.mp h
      cases heq
      exact ⟨(caseColumn_eq_some hc).1, by simp⟩

namespace Preview

variable (p : Preview)

def target (source : String) : Option TableColumn :=
  let found := p.columnMapping.find? (·.sourceName = source)
  (resolveTarget p.texts p.table source (found.elim source (·.targetName)) found.isSome).map Prod.fst

def resolvedNames : List String :=
  p.dataframeColumns.filterMap fun column => (p.target column.name).map (·.name)

/-- One dataframe column is resolved to the name, and no other to it in any case. -/
def ResolvedOnce (name : String) : Prop :=
  name ∈ p.resolvedNames ∧
    (name = "" ∨ (p.resolvedNames.map p.texts.lower).count (p.texts.lower name) = 1)

def resolvedRows : List ResolutionRow := p.dataframeColumns.map (resolveColumn p)

def markedRows : List ResolutionRow :=
  p.resolvedRows.map (markRow p.texts (duplicateNames p.texts p.resolvedRows))

def missingColumns : List TableColumn :=
  p.table.columns.filter fun column => !(usedTargetNames p.markedRows).contains column.name

def mappedNames : List (String × String) := p.markedRows.filterMap effectiveNames

end Preview

lemma target_mem {source : String} (h : p.target source = some column) :
    column ∈ p.table.columns := by
  obtain ⟨⟨_, _, _⟩, hr, rfl⟩ := Option.map_eq_some_iff.mp h
  exact (resolveTarget_eq_some hr).1

structure Resolves (sourceName : String) (target : Option TableColumn) (row : ResolutionRow) : Prop where
  source : row.sourceName = some sourceName
  effective : row.effectiveTargetName = target.map (·.name)
  status : row.status ≠ .missingInDataframe ∧ row.status ≠ .duplicateEffectiveTarget ∧
    row.status ≠ .invalid ∧ (row.status = .missingInDb ↔ target = none)
  action : ∀ action, row.suggestedAction = some action → action.type ≠ .dropColumn

lemma resolves_resolveColumn : Resolves source.name (p.target source.name)
    (resolveColumn p source) := by
  rw [resolveColumn, resolveExistingColumnRow, Preview.target]
  split
  · next column status reason ht =>
    have hs := (resolveTarget_eq_some ht).2
    rw [ht, matchedExistingRow]
    cases isTypeMismatch _ _ <;> exact ⟨rfl, rfl, by grind, by simp [tableColumnAction]⟩
  · next ht =>
    rw [ht]
    exact ⟨rfl, rfl, by simp [missingInDbRow], by simp [missingInDbRow, tableColumnAction]⟩

lemma markDuplicateEffectiveTargets_fst {diagnostics : List ResolutionDiagnostic} :
    (markDuplicateEffectiveTargets t rows diagnostics).1 = rows.map (markRow t (duplicateNames t rows)) := by
  rw [markDuplicateEffectiveTargets]
  split
  · next hnil =>
    have hid : markRow t (duplicateNames t rows) = id := by
      funext row
      cases he : row.effectiveTargetName <;> simp [markRow, he, isDuplicated, hnil]
    rw [hid, map_id]
  · rfl

@[simp] lemma markRow_sourceName : (markRow t names row).sourceName = row.sourceName := by
  rw [markRow]
  split <;> rfl

@[simp] lemma markRow_effectiveTargetName :
    (markRow t names row).effectiveTargetName = row.effectiveTargetName := by
  rw [markRow]
  split <;> rfl

lemma mem_markedRows (h : row ∈ p.markedRows) :
    ∃ source ∈ p.dataframeColumns, ∃ names,
      row = markRow p.texts names (resolveColumn p source) := by
  obtain ⟨_, hrow, rfl⟩ := mem_map.mp h
  obtain ⟨source, hs, rfl⟩ := mem_map.mp hrow
  exact ⟨source, hs, _, rfl⟩

lemma resolvedNames_eq : p.resolvedNames = p.resolvedRows.filterMap (·.effectiveTargetName) := by
  rw [Preview.resolvedRows, filterMap_map, Preview.resolvedNames]
  exact filterMap_congr fun source _ => resolves_resolveColumn.effective.symm

lemma mem_resolvedNames : name ∈ p.resolvedNames ↔
    ∃ row ∈ p.markedRows, row.effectiveTargetName = some name := by
  rw [resolvedNames_eq, Preview.markedRows]
  simp

lemma mem_duplicateNames : name ∈ duplicateNames t rows ↔
    1 < ((rows.filterMap (·.effectiveTargetName)).map t.lower).count name := by
  refine mem_filter.trans ⟨fun h => of_decide_eq_true h.2, fun h => ⟨?_, decide_eq_true h⟩⟩
  exact count_pos_iff.mp (Nat.lt_trans Nat.one_pos h)

lemma duplicate_iff (hrow : row ∈ p.resolvedRows) (hname : row.effectiveTargetName = some name) :
    (markRow p.texts (duplicateNames p.texts p.resolvedRows) row).status =
        .duplicateEffectiveTarget ↔ ¬ p.ResolvedOnce name := by
  obtain ⟨source, -, rfl⟩ := mem_map.mp hrow
  have hs : (resolveColumn p source).status ≠ .duplicateEffectiveTarget :=
    resolves_resolveColumn.status.2.1
  have hmem : name ∈ p.resolvedNames := by
    rw [resolvedNames_eq]
    exact mem_filterMap.mpr ⟨_, hrow, hname⟩
  have hcount : 0 < (p.resolvedNames.map p.texts.lower).count (p.texts.lower name) :=
    count_pos_iff.mpr (mem_map_of_mem hmem)
  have hdup : isDuplicated p.texts (duplicateNames p.texts p.resolvedRows)
      name ↔ ¬ p.ResolvedOnce name := by
    simp only [isDuplicated, Bool.and_eq_true, decide_eq_true_eq, contains_eq_mem,
      mem_duplicateNames, ← resolvedNames_eq, Preview.ResolvedOnce, hmem, true_and, not_or]
    refine and_congr_right fun _ => ?_
    omega
  rw [markRow, hname, Option.any_some, ← hdup]
  split
  · next h => simp [h]
  · next h => simp [h, hs]

lemma mem_missingColumns : column ∈ p.missingColumns ↔
    column ∈ p.table.columns ∧ ¬ p.ResolvedOnce column.name := by
  have hused : column.name ∈ usedTargetNames p.markedRows ↔ p.ResolvedOnce column.name := by
    simp only [usedTargetNames, mem_filterMap, mem_filter, decide_eq_true_eq]
    constructor
    · rintro ⟨_, ⟨hmarked, hs⟩, hname⟩
      obtain ⟨row, hrow, rfl⟩ := mem_map.mp hmarked
      rw [markRow_effectiveTargetName] at hname
      exact not_not.mp ((duplicate_iff hrow hname).not.mp hs)
    · intro honce
      obtain ⟨_, hmarked, hname⟩ := mem_resolvedNames.mp honce.1
      obtain ⟨row, hrow, rfl⟩ := mem_map.mp hmarked
      refine ⟨_, ⟨hmarked, ?_⟩, hname⟩
      rw [markRow_effectiveTargetName] at hname
      exact (duplicate_iff hrow hname).not.mpr (not_not.mpr honce)
  simp [Preview.missingColumns, hused]

variable {result : ResolutionResult}

lemma resolve_ok (h : resolveExistingTableWriteColumns p = .ok result) :
    result.columns = p.markedRows ++
        p.missingColumns.map (missingInDataframeRow p.texts) ∧
      result.effectiveColumnMapping = result.columns.filterMap (effectiveMapping p.texts p.dataTypeOf) := by
  simp only [resolveExistingTableWriteColumns, markDuplicateEffectiveTargets_fst, buildResult] at h
  split at h
  · cases h
  · split at h
    · cases h
    · cases h
      exact ⟨rfl, rfl⟩

def SuggestsDrop (result : ResolutionResult) (name : String) : Prop :=
  ∃ row ∈ result.columns, ∃ action, row.suggestedAction = some action ∧
    action.type = .dropColumn ∧ action.columnName = name

section

variable (h : resolveExistingTableWriteColumns p = .ok result)

include h

lemma exists_effective_iff : (∃ row ∈ result.columns, row.effectiveTargetName = some name) ↔
    name ∈ p.resolvedNames := by
  rw [(resolve_ok h).1, mem_resolvedNames]
  simp [or_and_right, exists_or, missingInDataframeRow]

lemma suggestsDrop_iff : SuggestsDrop result name ↔
    ∃ column ∈ p.missingColumns, p.texts.strip column.name = name := by
  rw [SuggestsDrop, (resolve_ok h).1]
  constructor
  · rintro ⟨row, hrow, action, haction, hdrop, rfl⟩
    rcases mem_append.mp hrow with hrow | hrow
    · -- only the rows of missing columns suggest to drop one
      obtain ⟨source, -, names, rfl⟩ := mem_markedRows hrow
      rw [markRow] at haction
      split at haction
      · cases haction
      · exact absurd hdrop (resolves_resolveColumn.action action haction)
    · obtain ⟨column, hcolumn, rfl⟩ := mem_map.mp hrow
      cases haction
      exact ⟨column, hcolumn, rfl⟩
  · rintro ⟨column, hcolumn, rfl⟩
    exact ⟨_, mem_append_right _ (mem_map_of_mem hcolumn), _, rfl, rfl, rfl⟩

/-- The action has the name of its column without surrounding white space. -/
theorem suggestsDrop_unused_iff (name : String) :
    (SuggestsDrop result name → ∀ row ∈ result.columns, row.effectiveTargetName ≠ some name) ↔
      (name ∈ p.resolvedNames → ∀ column ∈ p.table.columns,
        p.texts.strip column.name = name → p.ResolvedOnce column.name) := by
  have hresolved : _ ↔ name ∈ _ := exists_effective_iff h
  constructor
  · intro hunused hname column hcolumn hstrip
    by_contra honce
    obtain ⟨row, hrow, heffective⟩ := hresolved.mpr hname
    have hdrop := (suggestsDrop_iff h).mpr ⟨column, mem_missingColumns.mpr ⟨hcolumn, honce⟩, hstrip⟩
    exact hunused hdrop row hrow heffective
  · intro honce hdrop row hrow heffective
    obtain ⟨column, hmissing, hstrip⟩ := (suggestsDrop_iff h).mp hdrop
    obtain ⟨hcolumn, hnot⟩ := mem_missingColumns.mp hmissing
    exact hnot (honce (hresolved.mp ⟨row, hrow, heffective⟩) column hcolumn hstrip)

end

def sampleNames : Texts where
  strip name := if name = "a " then "a" else name
  lower name := ([("Код", "код"), ("KOD", "kod")].lookup name).getD name
  isAscii name := name ≠ "Код"
  ru2en name := ([("Код", "kod"), ("KOD", "kod"), ("a ", "a")].lookup name).getD name

def productsTable (names : List String) (h : names.Nodup) : ReflectedTable where
  schema := none
  name := "products"
  columns := names.map fun name => ⟨⟨name, true, false, false, false, false, true⟩, "INTEGER", none⟩
  nodup_names := by rwa [map_map, Function.comp_def, map_id']

def samplePreview (dataframe table : List String) (h : table.Nodup) : Preview where
  texts := sampleNames
  dataTypeOf _ := .int
  table := productsTable table h
  metadata := dataframe.map fun name => { name, dtype := .int }
  columnMapping := []
  onExtraDfColumns := .ignore
  onMissingDfColumns := .ignore

def obsoletePreview : Preview := samplePreview ["Код", "id"] ["kod", "id", "obsolete"] (by decide)

theorem suggestsDrop_unused_sample : ∃ result,
    resolveExistingTableWriteColumns obsoletePreview = .ok result ∧
      SuggestsDrop result "obsolete" ∧ ∀ name, SuggestsDrop result name →
        ∀ row ∈ result.columns, row.effectiveTargetName ≠ some name := by
  have h : ∃ result, resolveExistingTableWriteColumns obsoletePreview = .ok result := ⟨_, rfl⟩
  obtain ⟨result, h⟩ := h
  refine ⟨result, h, ?_, fun name => (suggestsDrop_unused_iff h name).mpr ?_⟩
  · cases h
    exact ⟨_, mem_append_right _ mem_cons_self, _, rfl, rfl, rfl⟩
  · have honce : ∀ column ∈ obsoletePreview.table.columns,
        sampleNames.strip column.name ∈ obsoletePreview.resolvedNames →
          obsoletePreview.ResolvedOnce column.name := by
      unfold Preview.ResolvedOnce
      decide
    rintro hname column hcolumn rfl
    exact honce column hcolumn hname

/-- Both columns are resolved to `kod`, which is to be dropped. -/
theorem suggestsDrop_resolved : ∃ result,
    resolveExistingTableWriteColumns (samplePreview ["Код", "kod"] ["kod"] (by decide)) = .ok result ∧
      SuggestsDrop result "kod" ∧
      (result.columns.map fun row => (row.sourceName, row.effectiveTargetName)) =
        [(some "Код", some "kod"), (some "kod", some "kod"), (none, none)] := by
  refine ⟨_, rfl, ?_, rfl⟩
  exact ⟨_, mem_append_right _ mem_cons_self, _, rfl, rfl, rfl⟩

structure OneToOne (p : Preview) (result : ResolutionResult) : Prop where
  sources : (result.effectiveColumnMapping.map (·.sourceName)).Nodup
  targets : (result.effectiveColumnMapping.map fun m => p.texts.lower m.targetName).Nodup
  target_mem : ∀ m ∈ result.effectiveColumnMapping, m.targetName ∈ p.table.columnNames
  source_mem : ∀ m ∈ result.effectiveColumnMapping, ∃ column ∈ p.metadata,
    column.name = m.sourceName ∧ isInternalDvtName p.texts column.name = false

def Covers (p : Preview) (result : ResolutionResult) : Prop :=
  ∀ name ∈ p.table.columnNames, (∃ row ∈ result.columns, row.effectiveTargetName = some name) ∨
    ((result.columns.filter (·.status = .missingInDataframe)).map (·.dbName)).count (some name) = 1

lemma effectiveNames_eq_some {row : ResolutionRow} {names : String × String} :
    effectiveNames row = some names ↔
      row.sourceName = some names.1 ∧ row.effectiveTargetName = some names.2 ∧ names.1 ≠ "" ∧
        names.2 ≠ "" ∧ row.status ∉ [.missingInDb, .missingInDataframe, .typeMismatch,
          .duplicateEffectiveTarget, .invalid] := by
  rw [effectiveNames]
  cases row.sourceName <;> cases row.effectiveTargetName <;> try simp
  grind

lemma mem_mappedNames {names : String × String} (h : names ∈ p.mappedNames) :
    (∃ source ∈ p.dataframeColumns, source.name = names.1) ∧
      ∃ column, p.target names.1 = some column ∧ column.name = names.2 := by
  obtain ⟨row, hrow, hn⟩ := mem_filterMap.mp h
  obtain ⟨source, hs, _, rfl⟩ := mem_markedRows hrow
  obtain ⟨hname, he, -⟩ := effectiveNames_eq_some.mp hn
  rw [markRow_sourceName, resolves_resolveColumn.source, Option.some.injEq] at hname
  rw [markRow_effectiveTargetName, resolves_resolveColumn.effective, hname] at he
  exact ⟨⟨source, hs, hname⟩, Option.map_eq_some_iff.mp he⟩

lemma mapping_eq (hm : ∀ column ∈ p.metadata, p.texts.strip column.name = column.name)
    (ht : ∀ column ∈ p.table.columns, p.texts.strip column.name = column.name)
    (h : resolveExistingTableWriteColumns p = .ok result) :
    result.effectiveColumnMapping.map (fun m => (m.sourceName, m.targetName)) = p.mappedNames := by
  obtain ⟨hc, hmap⟩ := resolve_ok h
  have hmis : (p.missingColumns.map
      (missingInDataframeRow p.texts)).filterMap effectiveNames = [] := by
    simp [effectiveNames, missingInDataframeRow]
  have hp : result.effectiveColumnMapping.map (fun m => (m.sourceName, m.targetName)) =
      p.mappedNames.map fun names =>
        (p.texts.strip names.1, p.texts.strip names.2) := by
    rw [hmap, Preview.mappedNames, ← append_nil (filterMap effectiveNames _), ← hmis, ← filterMap_append,
      ← hc, map_filterMap, map_filterMap]
    simp [effectiveMapping, Function.comp_def]
  rw [hp]
  refine (map_congr_left fun names hn => ?_).trans (map_id _)
  obtain ⟨⟨source, hs, hname⟩, column, hcol, hcn⟩ := mem_mappedNames hn
  have hss := hm source (mem_filter.mp hs).1
  have hts := ht column (target_mem hcol)
  rw [hname] at hss
  rw [hcn] at hts
  exact Prod.ext hss hts

lemma pairwise_count_lt {l : List String} : l.Pairwise fun a b => a = b → 1 < l.count a := by
  rw [pairwise_iff_forall_sublist]
  rintro a b hsub rfl
  have hc : 2 ≤ l.count a := by simpa using hsub.count_le a
  exact hc

lemma pairwise_targets (rows : List ResolutionRow) : ((rows.map (markRow t (duplicateNames t rows))).filterMap
    effectiveNames).Pairwise fun p q => t.lower p.2 ≠ t.lower q.2 := by
  have hpai := pairwise_count_lt (l := (rows.filterMap (·.effectiveTargetName)).map t.lower)
  rw [pairwise_map, pairwise_filterMap] at hpai
  rw [pairwise_filterMap, pairwise_map]
  refine hpai.imp fun {a b} hab p hp q hq heq => ?_
  obtain ⟨-, hpta, -, hne, hs⟩ := effectiveNames_eq_some.mp hp
  obtain ⟨-, hqta, -⟩ := effectiveNames_eq_some.mp hq
  rw [markRow_effectiveTargetName] at hpta hqta
  have hc := hab p.2 hpta q.2 hqta heq
  have hmem : t.lower p.2 ∈ duplicateNames t rows := mem_duplicateNames.mpr hc
  have hdup : a.effectiveTargetName.any (isDuplicated t (duplicateNames t rows)) = true := by
    simp [hpta, isDuplicated, hne, hmem]
  rw [markRow, if_pos hdup] at hs
  simp at hs

lemma pairwise_sources (hn : (p.metadata.map (·.name)).Nodup) :
    p.mappedNames.Pairwise fun p q => p.1 ≠ q.1 := by
  have hrows : p.dataframeColumns.Pairwise fun a b => a.name ≠ b.name :=
    (pairwise_map.mp hn).filter _
  rw [Preview.mappedNames, Preview.markedRows, pairwise_filterMap, pairwise_map,
    Preview.resolvedRows, pairwise_map]
  refine hrows.imp fun {a b} hab p hp q hq heq => hab ?_
  have hp := (effectiveNames_eq_some.mp hp).1
  have hq := (effectiveNames_eq_some.mp hq).1
  rw [markRow_sourceName, resolves_resolveColumn.source, Option.some.injEq] at hp hq
  rw [hp, hq, heq]

lemma missing_names (hc : result.columns = p.markedRows ++
      p.missingColumns.map (missingInDataframeRow p.texts)) :
    (result.columns.filter (·.status = .missingInDataframe)).map (·.dbName) =
      p.missingColumns.map (some ·.name) := by
  have hrows : p.markedRows.filter (·.status = .missingInDataframe) = [] := by
    refine filter_eq_nil_iff.mpr fun row hrow => ?_
    obtain ⟨source, -, names, rfl⟩ := mem_markedRows hrow
    rw [markRow]
    split
    · simp
    · simpa using resolves_resolveColumn.status.1
  rw [hc, filter_append, hrows, nil_append, filter_map]
  simp [missingInDataframeRow, Function.comp_def]

lemma covers_of_resolve (h : resolveExistingTableWriteColumns p = .ok result) : Covers p result := by
  intro name hname
  obtain ⟨column, hcolumn, rfl⟩ := mem_map.mp hname
  by_cases honce : p.ResolvedOnce column.name
  · exact .inl ((exists_effective_iff h).mpr honce.1)
  · right
    rw [missing_names (resolve_ok h).1]
    refine count_eq_one_of_mem ?_
      (mem_map.mpr ⟨column, mem_missingColumns.mpr ⟨hcolumn, honce⟩, rfl⟩)
    refine pairwise_map.mpr (((pairwise_map.mp p.table.nodup_names).filter _).imp fun hne heq => ?_)
    exact hne (Option.some.inj heq)

/-- Only the names of the mapping depend on white space around the names. -/
theorem oneToOne_of_stripped (h : resolveExistingTableWriteColumns p = .ok result) :
    Covers p result ∧ ((p.metadata.map (·.name)).Nodup →
      (∀ column ∈ p.metadata, p.texts.strip column.name = column.name) →
      (∀ column ∈ p.table.columns, p.texts.strip column.name = column.name) →
        OneToOne p result) := by
  refine ⟨covers_of_resolve h, fun hnodup hmetadata htable => ?_⟩
  have hnames := mapping_eq hmetadata htable h
  have hmem : ∀ m ∈ result.effectiveColumnMapping, (m.sourceName, m.targetName) ∈ p.mappedNames :=
    fun m hm => hnames ▸ mem_map_of_mem hm
  refine ⟨?_, ?_, fun m hm => ?_, fun m hm => ?_⟩
  · have hpairs : p.mappedNames.Pairwise fun p q => p.1 ≠ q.1 :=
      pairwise_sources hnodup
    rw [← hnames, pairwise_map] at hpairs
    exact pairwise_map.mpr hpairs
  · have hpairs := pairwise_targets (t := p.texts) p.resolvedRows
    rw [← Preview.markedRows, ← Preview.mappedNames, ← hnames, pairwise_map] at hpairs
    exact pairwise_map.mpr hpairs
  · obtain ⟨-, column, hcolumn, hname⟩ := mem_mappedNames (hmem m hm)
    exact mem_map.mpr ⟨column, target_mem hcolumn, hname⟩
  · obtain ⟨⟨source, hsource, hname⟩, -⟩ := mem_mappedNames (hmem m hm)
    obtain ⟨hsource, hinternal⟩ := mem_filter.mp hsource
    exact ⟨source, hsource, hname, by simpa using hinternal⟩

theorem oneToOne_sample : ∃ result,
    resolveExistingTableWriteColumns obsoletePreview = .ok result ∧ Covers obsoletePreview result ∧
      OneToOne obsoletePreview result := by
  have h : ∃ result, resolveExistingTableWriteColumns obsoletePreview = .ok result := ⟨_, rfl⟩
  obtain ⟨result, h⟩ := h
  obtain ⟨hcovers, honeToOne⟩ := oneToOne_of_stripped h
  exact ⟨result, h, hcovers, honeToOne (by decide) (by decide) (by decide)⟩

def blankPreview : Preview := samplePreview ["a", "a "] ["a", "a "] (by decide)

/-- The names of the mapping are stripped, so both of its entries are `a` to `a`. -/
theorem not_oneToOne_blank : ∃ result, resolveExistingTableWriteColumns blankPreview = .ok result ∧
    blankPreview.metadata.map (·.name) = ["a", "a "] ∧
      (result.effectiveColumnMapping.map fun m => (m.sourceName, m.targetName)) =
        [("a", "a"), ("a", "a")] := by
  exact ⟨_, rfl, rfl, rfl⟩

end Dvt.Writes
