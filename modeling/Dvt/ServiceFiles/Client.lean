import Dvt.ServiceFiles.Paths

/-! The client of the service files: each call is one transaction on the table of records. -/

namespace Dvt.ServiceFiles

open Library
open Projects (Text FileObject columnsFit)

structure FileRecord extends FileObject where
  id : String
  organizationId : String
  projectId : String
  deriving DecidableEq

def FileRecord.key (row : FileRecord) : String × String × Text × Text :=
  (row.organizationId, row.projectId, row.parentPath, row.name)

def recordSchema : Schema FileRecord := .uniques fun row => (row.id, row.key)

abbrev Store := Table recordSchema

/-- `uuid4` is asked once for each inserted row. -/
structure Builtins where
  uuid4 : Store → String
  sha256 : List UInt8 → String
  guessType : Text → Option String

structure Client where
  organizationId : String
  projectId : String
  rootPrefix : Text
  normal : normalizePath (some rootPrefix) = .ok rootPrefix

/-- SQL's LIKE without escapes: no path holds a backslash. -/
def like : List Char → List Char → Bool
  | [], text => text = []
  | c :: pattern, text =>
    if c = '%' then text.tails.any (like pattern)
    else
      match text with
      | [] => false
      | d :: text => (c = '_' || c = d) && like pattern text

def Store.insertRow (store : Store) (row : FileRecord) : Except Raised Store :=
  if columnsFit row.toFileObject then
    match store.insert row with
    | some store => .ok store
    | none => .error .database
  else .error .database

def Store.updateRow (store : Store) (id : String) (f : FileRecord → FileRecord) :
    Except Raised Store :=
  if store.rows.all fun row => row.id ≠ id || columnsFit (f row).toFileObject then
    match store.change fun row => if row.id = id then f row else row with
    | some store => .ok store
    | none => .error .database
  else .error .database

def Store.deleteRow (store : Store) (id : String) : Store := store.delete fun row => row.id = id

section

variable (builtins : Builtins) (c : Client)

def Client.owns (row : FileRecord) : Bool :=
  row.organizationId = c.organizationId ∧ row.projectId = c.projectId

def Client.scopedPath (path filename : Option Text) : Except Raised Text :=
  joinPath [some c.rootPrefix, path, filename]

def Client.parentAndName (path filename : Option Text) : Except Raised (Text × Text) := do
  splitPath (← c.scopedPath path filename)

def Client.selectEntry (store : Store) (parentPath name : Text) : Option FileRecord :=
  store.lookup FileRecord.key (c.organizationId, c.projectId, parentPath, name)

def Client.directory (store : Store) (parentPath name : Text) : FileRecord where
  id := builtins.uuid4 store
  organizationId := c.organizationId
  projectId := c.projectId
  parentPath := parentPath
  name := name
  isDir := true

def Client.ensureDirFrom (current : Text) : List Text → Store → Except Raised Store
  | [], store => .ok store
  | part :: parts, store =>
    let next := if current = [] then part else current ++ '/' :: part
    match c.selectEntry store current part with
    | none =>
      match store.insertRow (c.directory builtins store current part) with
      | .error raised => .error raised
      | .ok store => Client.ensureDirFrom next parts store
    | some existing =>
      if existing.isDir then Client.ensureDirFrom next parts store
      else .error (.notADirectory next)

def Client.ensureDir (parentPath : Text) (store : Store) : Except Raised Store :=
  c.ensureDirFrom builtins [] (segments '/' parentPath) store

def Client.mkdir (path filename : Option Text) (store : Store) : Except Raised Store := do
  let fullPath ← c.scopedPath path filename
  if fullPath = [] then return store
  let (parentPath, name) ← splitPath fullPath
  let store ← c.ensureDir builtins parentPath store
  match c.selectEntry store parentPath name with
  | none => store.insertRow (c.directory builtins store parentPath name)
  | some existing => if existing.isDir then return store else throw (.fileExists fullPath)

def mediaType (contentType : Option String) (name : Text) : String :=
  match contentType.filter (· ≠ "") with
  | some contentType => contentType
  | none => (builtins.guessType name).getD "application/octet-stream"

def written (content : List UInt8) (contentType : Option String) (object : FileObject) : FileObject :=
  { object with
    isDir := false
    content := some content
    contentType := some (mediaType builtins contentType object.name)
    size := content.length
    sha256 := some (builtins.sha256 content) }

def Client.writeFile (fullPath : Text) (content : List UInt8) (contentType : Option String)
    (store : Store) : Except Raised Store := do
  let (parentPath, name) ← splitPath fullPath
  let store ← c.ensureDir builtins parentPath store
  match c.selectEntry store parentPath name with
  | none => store.insertRow { c.directory builtins store parentPath name with
      toFileObject := written builtins content contentType { parentPath, name } }
  | some existing => store.updateRow existing.id fun row =>
      { row with toFileObject := written builtins content contentType row.toFileObject }

def Client.remove (path filename : Option Text) (store : Store) : Except Raised Store := do
  let (parentPath, name) ← c.parentAndName path filename
  match (c.selectEntry store parentPath name).filter fun row => !row.isDir with
  | none => throw (.fileNotFound (← c.scopedPath path filename))
  | some row => return store.deleteRow row.id

def Client.children (store : Store) (parentPath : Text) : List FileRecord :=
  store.select fun row => c.owns row ∧ row.parentPath = parentPath

def Client.rmdir (path filename : Option Text) (store : Store) : Except Raised Store := do
  let (parentPath, name) ← c.parentAndName path filename
  let fullPath ← joinPath [some parentPath, some name]
  if c.children store fullPath ≠ [] then throw (.os "Directory is not empty.")
  match (c.selectEntry store parentPath name).filter fun row => row.isDir with
  | none => throw (.fileNotFound fullPath)
  | some row => return store.deleteRow row.id

def below (fullPath parentPath : Text) : Bool :=
  parentPath = fullPath || like (fullPath ++ ['/', '%']) parentPath

def relocate (srcFullPath dstFullPath parentPath : Text) : Text :=
  dstFullPath ++ parentPath.drop srcFullPath.length

def Client.moveChildren (srcFullPath dstFullPath : Text) (store : Store) : Except Raised Store :=
  let children := store.select fun row => c.owns row ∧ below srcFullPath row.parentPath
  children.foldlM (fun store child => store.updateRow child.id fun row =>
    { row with parentPath := relocate srcFullPath dstFullPath child.parentPath }) store

def Client.rename (srcPath srcFilename dstPath dstFilename : Option Text) (store : Store) :
    Except Raised Store := do
  let (srcParent, srcName) ← c.parentAndName srcPath srcFilename
  let (dstParent, dstName) ← c.parentAndName dstPath dstFilename
  let srcFullPath ← joinPath [some srcParent, some srcName]
  let dstFullPath ← joinPath [some dstParent, some dstName]
  let store ← c.ensureDir builtins dstParent store
  match c.selectEntry store srcParent srcName with
  | none => throw (.fileNotFound (← c.scopedPath srcPath srcFilename))
  | some src =>
    if (c.selectEntry store dstParent dstName).isSome then
      throw (.fileExists (← c.scopedPath dstPath dstFilename))
    let store ← store.updateRow src.id fun row => { row with parentPath := dstParent, name := dstName }
    if src.isDir then c.moveChildren srcFullPath dstFullPath store else return store

end

inductive Call
  | mkdir (path filename : Option Text)
  | writeFile (fullPath : Text) (content : List UInt8) (contentType : Option String)
  | remove (path filename : Option Text)
  | rmdir (path filename : Option Text)
  | rename (srcPath srcFilename dstPath dstFilename : Option Text)

def Client.call (builtins : Builtins) (c : Client) (store : Store) : Call → Except Raised Store
  | .mkdir path filename => c.mkdir builtins path filename store
  | .writeFile fullPath content contentType => c.writeFile builtins fullPath content contentType store
  | .remove path filename => c.remove path filename store
  | .rmdir path filename => c.rmdir path filename store
  | .rename srcPath srcFilename dstPath dstFilename =>
    c.rename builtins srcPath srcFilename dstPath dstFilename store

end Dvt.ServiceFiles
