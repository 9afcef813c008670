import Dvt.Library.Dict
import Dvt.Library.Programs
import Dvt.Parquet.Partitioning

/-! The writer of partitioned Parquet datasets, and the files and directories it changes. -/

namespace Dvt.Parquet

open Library

inductive Content (ρ β : Type)
  | parquet (rows : List ρ)
  | other (bytes : β)

inductive Protocol
  | objectStorage
  | directory
  | other
  deriving DecidableEq, Repr

/-- `fails` says which calls raise, `debris` what a failed write leaves behind. The path of a
request is not empty, so the target is not. -/
structure Env (ρ κ τ β : Type) where
  texts : Texts
  pandas : Pandas ρ κ
  arrow : Arrow κ τ
  protocol : Protocol
  target : Path
  target_ne_nil : target.rdropWhile (fun c => c = '/') ≠ []
  normalize : Path → Path
  uuid : ℕ → Path
  extractIncrement : List Segment → Path → Option ℕ
  debris : ℕ → Option (Content ρ β)
  fails : Point → Bool

structure State (ρ β : Type) where
  files : Dict Path (Content ρ β)
  dirs : List Path
  increment : ℕ
  attempted : List Path

abbrev Run (ρ β : Type) := EStateM ParquetError (State ρ β)

structure AdvancedWritePlan where
  template : List Segment
  existingFiles : List Path
  startIncrement : ℕ

structure PartitionWriteResult where
  rows : ℕ
  paths : List Path

def PartitionWriteResult.append (a b : PartitionWriteResult) : PartitionWriteResult :=
  ⟨a.rows + b.rows, a.paths ++ b.paths⟩

structure ParquetWriteResult where
  layout : ParquetLayout
  rowsWritten : ℕ
  filesWritten : ℕ
  paths : List Path

def posixJoin (a b : Path) : Path :=
  if b.head? = some '/' then b
  else if a = [] ∨ a.getLast? = some '/' then a ++ b
  else a ++ '/' :: b

def dirname (path : Path) : Path := (splitLast '/' path).1

def basename (path : Path) : Path := (splitLast '/' path).2

def below (root path : Path) : Bool := (root ++ ['/']).isPrefixOf path

/-- `posixpath.commonpath` of two paths; an absolute and a relative one raise. -/
def commonPath (a b : Path) : Option Path :=
  let parts (path : Path) := (segments '/' path).filter fun part => part ≠ ['.']
  let shared := ((parts a).zip (parts b)).takeWhile fun pair => pair.1 = pair.2
  let joined := joinSegments '/' (shared.map Prod.fst)
  if (a.head? = some '/') ≠ (b.head? = some '/') then none
  else some (if a.head? = some '/' then '/' :: joined else joined)

section

variable {ρ κ τ β : Type} (env : Env ρ κ τ β)

def Env.root : Path := env.target.rdropWhile fun c => c = '/'

def isDir (st : State ρ β) (path : Path) : Bool :=
  st.dirs.contains path || st.files.keys.any (below path)

def pathExists (st : State ρ β) (path : Path) : Bool := (st.files.get? path).isSome || isDir st path

def listRecursive (st : State ρ β) (root : Path) : List Path :=
  if root = [] then []
  else if pathExists st root && !isDir st root then [root]
  else st.files.keys.filter (below root)

def isNonEmptyDirectory (st : State ρ β) (root : Path) : Bool :=
  if pathExists st root && !isDir st root then true
  else if env.protocol = .directory then st.files.keys.any (below root) || st.dirs.any (below root)
  else !(listRecursive st root).isEmpty

def makeDirs (path : Path) (st : State ρ β) : State ρ β :=
  if env.protocol = .objectStorage then st
  else { st with dirs := st.dirs ++ path :: path.inits.filter fun parent => below parent path }

def removeFile (path : Path) (st : State ρ β) : State ρ β := { st with files := st.files.erase path }

def removeTree (root : Path) (st : State ρ β) : State ρ β :=
  { st with
    files := (st.files.keys.filter fun path => path = root || below root path).foldl Dict.erase st.files
    dirs := st.dirs.filter fun path => !(path = root || below root path) }

def assertDescendant (path root : Path) : Except ParquetError Unit :=
  rejectIf (commonPath (env.normalize path) (env.normalize root) ≠ some (env.normalize root) ||
    env.normalize path = env.normalize root) (.escapesRoot path)

/-- One empty directory after the other, upwards, up to a failure. -/
def removeEmptyParents (root : Path) : ℕ → Path → State ρ β → State ρ β
  | 0, _, st => st
  | fuel + 1, current, st =>
    if current = [] || current = root then st
    else
      match assertDescendant env current root with
      | .error _ => st
      | .ok _ =>
        if isNonEmptyDirectory env st current || env.fails (.rmdir current) then st
        else removeEmptyParents root fuel (dirname current)
          { st with dirs := st.dirs.filter fun dir => dir ≠ current }

def cleanupEmptyParents (paths : List Path) (root : Path) (st : State ρ β) : State ρ β :=
  if env.protocol = .objectStorage then st
  else
    let candidates := (paths.map dirname).eraseDups.mergeSort fun a b => b.count '/' ≤ a.count '/'
    candidates.foldl (fun st directory => removeEmptyParents env root (directory.length + 1) directory st) st

end

section

variable {ρ κ τ β : Type} (env : Env ρ κ τ β)

def inspectTarget (request : ParquetWriteRequest) (st : State ρ β) : Except ParquetError (List Path) := do
  rejectIf (pathExists st env.root && !isDir st env.root) (.targetIsFile request.path)
  match request.mode with
  | .create =>
    rejectIf (isNonEmptyDirectory env st env.root) (.targetNotEmpty request.path)
    return []
  | .overwrite => return []
  | .append =>
    rejectIf (!pathExists st env.root && (listRecursive st env.root).isEmpty) (.noDataset request.path)
    let parquetFiles := (listRecursive st env.root).filter (isParquetName env.texts)
    rejectIf parquetFiles.isEmpty (.noParquetFiles request.path)
    return parquetFiles

def nextIncrement (existingFiles : List Path) (template : List Segment) : ℕ :=
  existingFiles.foldl (fun next path =>
    match env.extractIncrement template (basename path) with
    | some value => max next (value + 1)
    | none => next) 0

def planAdvancedWrite (request : ParquetWriteRequest) (sourcePartitions : ℕ) (st : State ρ β) :
    Except ParquetError AdvancedWritePlan := do
  rejectIf (isParquetName env.texts (basename env.root)) (.fileAsDataset request.path)
  let template ← filenameTemplate env.texts request.filenameTemplate
  validateUniqueness template request sourcePartitions
  let existingFiles ← inspectTarget env request st
  let startIncrement := if request.mode = .append then nextIncrement env existingFiles template else 0
  return ⟨template, existingFiles, startIncrement⟩

end

section

variable {ρ κ τ β : Type} (env : Env ρ κ τ β)

def point (p : Point) : Run ρ β Unit := if env.fails p then throw (.failed p) else pure ()

def checked {α : Type} : Except ParquetError α → Run ρ β α
  | .ok a => pure a
  | .error error => throw error

def next : Run ρ β ℕ := modifyGet fun st => (st.increment, { st with increment := st.increment + 1 })

def track (path : Path) : Run ρ β Unit := modify fun st => { st with attempted := st.attempted ++ [path] }

def writeTable (number : ℕ) (path : Path) (rows : List ρ) : Run ρ β Unit := fun st =>
  if env.fails (.write number) then
    .error (.failed (.write number)) (match env.debris number with
        | some content => { st with files := st.files.set path content }
        | none => st)
  else .ok () { st with files := st.files.set path (.parquet rows) }

def writeOneFile (number : ℕ) (path : Path) (rows : List ρ) : Run ρ β ℕ := do
  point env (.parent number)
  modify (makeDirs env (dirname path))
  point env (.convert number)
  tryCatch (writeTable env number path rows) fun error => do
    modify (removeFile path)
    throw error
  return rows.length

def checkFree (number : ℕ) (path : Path) : Run ρ β Unit := do
  point env (.exists number)
  let st ← get
  if pathExists st path then throw (.collision path) else pure ()

def filePath (relativeDir filename : Path) : Path :=
  if relativeDir = [] then posixJoin env.root filename
  else posixJoin (posixJoin env.root relativeDir) filename

def writeChunk (template : List Segment) (partitionIndex : ℕ) (relativeDir : Path) (rows : List ρ) :
    Run ρ β PartitionWriteResult := do
  let number ← next
  let filename ← checked (render env.texts template partitionIndex number (env.uuid number))
  checked (assertDescendant env (filePath env relativeDir filename) env.root)
  checkFree env number (filePath env relativeDir filename)
  track (filePath env relativeDir filename)
  let written ← writeOneFile env number (filePath env relativeDir filename) rows
  return ⟨written, [filePath env relativeDir filename]⟩

def collect {α : Type} (f : α → Run ρ β PartitionWriteResult) : List α → Run ρ β PartitionWriteResult
  | [] => pure ⟨0, []⟩
  | x :: xs => do
    let first ← f x
    let rest ← collect f xs
    return first.append rest

def writeGroup (template : List Segment) (request : ParquetWriteRequest) (partitionIndex : ℕ)
    (group : List κ × List ρ) : Run ρ β PartitionWriteResult := do
  let directory ← checked (relativeDir env.arrow request.partitionOn group.1)
  collect (writeChunk env template partitionIndex directory) (splitChunks request.rowCap group.2)

def writeAdvancedPartition (template : List Segment) (request : ParquetWriteRequest)
    (partition : List ρ × ℕ) : Run ρ β PartitionWriteResult := do
  point env (.compute partition.2)
  if request.partitionOn.isEmpty then
    collect (writeChunk env template partition.2 []) (splitChunks request.rowCap partition.1)
  else do
    point env (.group partition.2)
    collect (writeGroup env template request partition.2)
      (env.pandas.groupby request.partitionOn partition.1)

def writeSentinel (template : List Segment) (request : ParquetWriteRequest) (result : PartitionWriteResult) :
    Run ρ β PartitionWriteResult :=
  if result.paths.isEmpty && request.mode ≠ .append then do
    let number ← next
    let filename ← checked (render env.texts template 0 number (env.uuid number))
    track (filePath env [] filename)
    let written ← writeOneFile env number (filePath env [] filename) []
    return ⟨result.rows + written, result.paths ++ [filePath env [] filename]⟩
  else pure result

def writePartitions (template : List Segment) (request : ParquetWriteRequest) (partitions : List (List ρ)) :
    Run ρ β PartitionWriteResult := do
  let result ← collect (writeAdvancedPartition env template request) partitions.zipIdx
  point env .finish
  writeSentinel env template request result

def removeAttempted (st : State ρ β) : State ρ β :=
  cleanupEmptyParents env st.attempted env.root (st.attempted.foldl (fun st path => removeFile path st) st)

def prepareAdvancedTarget (request : ParquetWriteRequest) (st : State ρ β) : State ρ β :=
  match request.mode with
  | .create => makeDirs env env.root st
  | .overwrite =>
    makeDirs env env.root
      (if pathExists st env.root || !(listRecursive st env.root).isEmpty then removeTree env.root st else st)
  | .append => st

def checkExistingFiles (request : ParquetWriteRequest) (existingFiles : List Path) : Run ρ β Unit :=
  if request.mode = .append then existingFiles.forM fun path => point env (.readSchema path) else pure ()

def planned (request : ParquetWriteRequest) (sourcePartitions : ℕ) : Run ρ β AdvancedWritePlan := do
  let st ← get
  checked (planAdvancedWrite env request sourcePartitions st)

def writeAdvanced (request : ParquetWriteRequest) (partitions : List (List ρ)) :
    Run ρ β ParquetWriteResult := do
  point env .schema
  point env .inspect
  let plan ← planned env request partitions.length
  checkExistingFiles env request plan.existingFiles
  point env .overlap
  point env .prepare
  modify (prepareAdvancedTarget env request)
  modify fun st => { st with increment := plan.startIncrement, attempted := [] }
  let result ← tryCatch (writePartitions env plan.template request partitions) fun error => do
    modify (removeAttempted env)
    throw error
  return ⟨.advanced, result.rows, result.paths.length, result.paths⟩

def inspectSimple (request : ParquetWriteRequest) (st : State ρ β) : Except ParquetError Unit := do
  rejectIf (isDir st env.target) (.targetIsDirectory request.path)
  rejectIf (request.mode = .create && pathExists st env.target) (.targetExists request.path)

def appendSimplePartition (partition : List ρ × ℕ) : Run ρ β Unit := do
  point env (.compute partition.2)
  point env (.convert partition.2)
  if partition.1.isEmpty then pure () else point env (.write partition.2)

/-- The file is complete once its writer is closed, and a close that fails is not undone. -/
def writeSimple (request : ParquetWriteRequest) (partitions : List (List ρ)) :
    Run ρ β ParquetWriteResult := do
  checked (rejectIf (request.mode = .append) .appendSimple)
  checked (rejectIf (!isParquetName env.texts env.target) (.notParquetFile env.target))
  point env .inspect
  checked (inspectSimple env request (← get))
  point env .schema
  point env .overlap
  point env (.parent 0)
  modify (makeDirs env (dirname env.target))
  tryCatch (do
    point env .prepare
    partitions.zipIdx.forM (appendSimplePartition env)
    point env .finish) fun error => do
      modify (removeFile env.target)
      throw error
  writeTable env partitions.length env.target partitions.flatten
  return ⟨.simple, partitions.flatten.length, 1, [env.target]⟩

def writeDataframe (request : ParquetWriteRequest) (partitions : List (List ρ)) :
    Run ρ β ParquetWriteResult := do
  checked (validateRequest env.texts request)
  if request.layout = .simple then writeSimple env request partitions
  else writeAdvanced env request partitions

end

end Dvt.Parquet
