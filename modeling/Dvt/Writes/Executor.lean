import Dvt.Library.Chunks
import Dvt.Library.Programs
import Dvt.Writes.Alignment

/-! Staged writes to a table: the statements of the executor and what they do. -/

namespace Dvt.Writes

open Library Library.Sql Function

inductive DialectName
  | postgresql
  | sqlite
  | oracle
  | mysql
  | mariadb
  | mssql
  | clickhouse
  deriving DecidableEq, Repr

def DialectName.supportsSchema : DialectName → Bool
  | .sqlite | .mysql | .mariadb | .clickhouse => false
  | .postgresql | .oracle | .mssql => true

def DialectName.truncatesDirectly : DialectName → Bool
  | .postgresql | .mysql | .mssql | .clickhouse => true
  | .sqlite | .oracle | .mariadb => false

def DialectName.fullTableName (dialect : DialectName) (table : String) (schema : Option String) :
    TableRef where
  schema := match schema with
    | some schema => if schema ≠ "" ∧ dialect.supportsSchema then some (.quoted schema) else none
    | none => none
  table := .quoted table

def DialectName.fullColumnName (dialect : DialectName) (table : String) (schema : Option String)
    (column : String) : ColumnRef :=
  ⟨dialect.fullTableName table schema, column⟩

def nullSafeEq (left right : ColumnRef) : Condition :=
  .or (.eq left right) (.and (.isNull left) (.isNull right))

def DialectName.deleteUsingStagingSql (dialect : DialectName) (targetTable : String)
    (targetSchema : Option String) (stagingTable : String) (stagingSchema : Option String)
    (keyColumn : String) : DeleteExists where
  target := dialect.fullTableName targetTable targetSchema
  source := dialect.fullTableName stagingTable stagingSchema
  correlation := .bare "s"
  condition := nullSafeEq (dialect.fullColumnName targetTable targetSchema keyColumn)
    ⟨⟨none, .bare "s"⟩, keyColumn⟩

inductive Statement
  | reflect
  | createStaging
  | partition (number : ℕ)
  | insert (partition chunk : ℕ)
  | insertDefaults (partition : ℕ)
  | truncate
  | createEmpty
  | swap
  | dropEmpty
  | delete
  | copy
  | copyDefaults
  | dropStaging
  deriving DecidableEq, Repr

inductive WriteError
  | align (error : AlignError)
  | statement (statement : Statement)
  deriving DecidableEq, Repr

/-- `fill` gives the values of a column that the statement does not name. -/
structure Server (V : Type) where
  dialect : DialectName
  fold : Folding
  defaultSchema : String
  same : V → V → Bool
  same_self : ∀ v, same v v = true
  fill : Statement → ℕ → Row V
  stagingName : String
  emptyName : String

abbrev TableKey := String × String

abbrev Database (V : Type) := TableKey → Option (List (Row V))

abbrev Run (V : Type) := EStateM WriteError (Database V)

structure DataFrame (V : Type) where
  index : List (Option String)
  columns : List String
  partitions : List (List (FrameRow V))

def DataFrame.meta {V : Type} (ddf : DataFrame V) : Frame V := ⟨ddf.index, ddf.columns, []⟩

structure WriteResult where
  mode : WriteMode
  rowsWritten : ℕ
  stagingRows : ℕ
  diagnostics : List WriteDiagnostic

section

variable {V : Type} (s : Server V)

def Server.key (schema : Option String) (name : String) : TableKey :=
  (match schema with
    | some schema => if schema = "" then s.defaultSchema else s.fold.quoted schema
    | none => s.defaultSchema, s.fold.quoted name)

def Server.denotes (ref : TableRef) : TableKey :=
  ((ref.schema.map s.fold.name).getD s.defaultSchema, s.fold.name ref.table)

structure Write (V : Type) extends Server V where
  texts : Texts
  table : Table
  ddf : DataFrame V
  request : WriteRequest

variable (w : Write V)

def Write.target : TableKey := w.key w.table.schema w.table.name

def Write.staging : TableKey := w.key w.table.schema w.stagingName

def Write.emptyCopy : TableKey := w.key w.table.schema w.emptyName

def Write.stagingTable : Table where
  schema := w.table.schema
  name := w.stagingName
  columns := w.table.columns.map fun column =>
    { name := column.name, nullable := true, serverDefault := false, default := false,
      autoincrement := false, primaryKey := false, numeric := column.numeric }

def stored (table : Table) (inserted : List String) (defaults row : Row V) : Row V := fun name =>
  if inserted.contains name then row name
  else if table.columnNames.contains name then defaults name
  else none

def violates (table : Table) (row : Row V) : Bool :=
  table.columns.any fun column => !column.nullable && (row column.name).isNone

def createTable (key : TableKey) (db : Database V) : Option (Database V) :=
  if (db key).isSome then none else some (update db key (some []))

def dropTable (key : TableKey) (db : Database V) : Option (Database V) :=
  some (update db key none)

def insertInto (key : TableKey) (table : Table) (inserted : List String) (fill : ℕ → Row V)
    (rows : List (Row V)) (db : Database V) : Option (Database V) := do
  let old ← db key
  let new := rows.mapIdx fun i row => stored table inserted (fill i) row
  if new.any (violates table) then none else some (update db key (some (old ++ new)))

def truncateSql (db : Database V) : Option (Database V) := do
  let key := w.denotes (w.dialect.fullTableName w.table.name w.table.schema)
  let _ ← db key
  return update db key (some [])

def Write.keyColumn : String := w.request.upsert.getD ""

def Write.deleteSql : DeleteExists :=
  w.dialect.deleteUsingStagingSql w.table.name w.table.schema w.stagingName w.table.schema w.keyColumn

def deleteUsingStaging (db : Database V) : Option (Database V) := do
  let sql := w.deleteSql
  let staged ← db (w.denotes sql.source)
  let old ← db (w.denotes sql.target)
  let left ← sql.run w.fold w.same staged old
  return update db (w.denotes sql.target) (some left)

def replaceTableWithCopy (db : Database V) : Option (Database V) := do
  let target := w.target
  let _ ← db target
  let db := update db target none
  let source := w.denotes (w.dialect.fullTableName w.emptyName w.table.schema)
  let rows ← db source
  let renamed : TableKey := (source.1, w.fold.quoted w.table.name)
  if (db renamed).isSome then none
  else some (update (update db source none) renamed (some rows))

end

section

variable {V : Type} (w : Write V) (fails : Statement → Bool)

def transaction (statement : Statement) (effect : Database V → Option (Database V)) : Run V Unit :=
  fun db =>
    match fails statement, effect db with
    | false, some db' => .ok () db'
    | _, _ => .error (.statement statement) db

def aligned {α : Type} : Except AlignError α → Run V α
  | .ok alignment => pure alignment
  | .error error => throw (.align error)

def insertChunks (number : ℕ) (key : TableKey) (table : Table) (inserted : List String)
    (fill : Statement → ℕ → Row V) (chunks : List (List (Row V))) : Run V Unit :=
  chunks.zipIdx.forM fun chunk =>
    transaction fails (.insert number chunk.2)
      (insertInto key table inserted (fill (.insert number chunk.2)) chunk.1)

def insertPartition (key : TableKey) (table : Table) (fill : Statement → ℕ → Row V) (number : ℕ)
    (pdf : Frame V) : Run V ℕ := do
  let alignment ← aligned (alignPartitionToTable w.texts pdf table w.request true)
  if alignment.rowCount = 0 then return 0
  else if alignment.defaultOnlyInsert then
    transaction fails (.insertDefaults number)
      (insertInto key table [] (fill (.insertDefaults number)) alignment.normalized)
    return alignment.rowCount
  else
    insertChunks fails number key table alignment.insertColumnNames fill
      (chunks (w.request.chunksize.getD alignment.rowCount) alignment.normalized)
    return alignment.rowCount

def processPartitions (handler : ℕ → Frame V → Run V ℕ) : ℕ → List (Frame V) → Run V ℕ
  | _, [] => pure 0
  | number, pdf :: pdfs => do
    transaction fails (.partition number) some
    let written ← handler number pdf
    let rest ← processPartitions handler (number + 1) pdfs
    return written + rest

def DataFrame.frames (ddf : DataFrame V) : List (Frame V) :=
  ddf.partitions.map fun rows => ⟨ddf.index, ddf.columns, rows⟩

def truncateOrReplaceTable : Run V Unit :=
  if w.dialect.truncatesDirectly then transaction fails .truncate (truncateSql w)
  else do
    transaction fails .createEmpty (createTable w.emptyCopy)
    tryCatch (transaction fails .swap (replaceTableWithCopy w)) fun error => do
      tryCatch (transaction fails .dropEmpty (dropTable w.emptyCopy)) fun _ => pure ()
      throw error

def emptyTarget : Run V Unit :=
  match w.request.mode with
  | .upsert => transaction fails .delete (deleteUsingStaging w)
  | _ => truncateOrReplaceTable w fails

def copyStaged (inserted : List String) (db : Database V) : Option (Database V) := do
  let staged ← db w.staging
  insertInto w.target w.table inserted (w.fill .copy) staged db

def copyRows (inserted : List String) (stagedRows : ℕ) : Run V Unit :=
  if inserted ≠ [] then transaction fails .copy (copyStaged w inserted)
  else if stagedRows ≠ 0 then
    transaction fails .copyDefaults (insertInto w.target w.table []
      (w.fill .copyDefaults) (List.replicate stagedRows fun _ => none))
  else pure ()

def stageRows : Run V ℕ :=
  processPartitions fails (insertPartition w fails w.staging w.stagingTable fun _ _ _ => none) 0
    w.ddf.frames

def stagedWrite (inserted : List String) : Run V ℕ := do
  let stagedRows ← stageRows w fails
  emptyTarget w fails
  copyRows w fails inserted stagedRows
  return stagedRows

def dropStaging : Run V Unit := transaction fails .dropStaging (dropTable w.staging)

def withStaging (body : Run V ℕ) : Run V ℕ := do
  transaction fails .createStaging (createTable w.staging)
  let stagedRows ← tryCatch body fun error => do
    tryCatch (dropStaging w fails) fun _ => pure ()
    throw error
  dropStaging w fails
  return stagedRows

def writeRows (inserted : List String) : Run V (ℕ × ℕ) :=
  match w.request.mode with
  | .append => do
    let written ← processPartitions fails
      (insertPartition w fails w.target w.table w.fill) 0 w.ddf.frames
    return (written, 0)
  | _ => do
    let written ← withStaging w fails (stagedWrite w fails inserted)
    return (written, written)

def Write.alignMeta : Except AlignError (ColumnAlignment V) :=
  alignPartitionToTable w.texts w.ddf.meta w.table w.request false

def execute : Run V WriteResult := do
  transaction fails .reflect fun db => (db w.target).map fun _ => db
  let alignment ← aligned w.alignMeta
  let written ← writeRows w fails alignment.insertColumnNames
  return ⟨w.request.mode, written.1, written.2, alignment.diagnostics⟩

end

end Dvt.Writes
