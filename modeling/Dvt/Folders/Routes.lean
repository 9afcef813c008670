import Dvt.Library.Dict
import Dvt.Library.Lines
import Dvt.Library.Runs

/-! Project folders: their queries, and the requests that create, move and delete them. -/

namespace Dvt.Folders

open Library

structure ProjectFolderRecord where
  name : String
  parentId : Option String
  userId : String
  organizationId : String
  isDeleted : Bool := false
  deriving DecidableEq, Repr

abbrev FolderTable := Dict String ProjectFolderRecord

inductive DVTDefaultRoles
  | superadmin | admin | user
  deriving DecidableEq, Repr

/-- The role `normalize_user_role` reads, `none` for a text that is no role. -/
structure UserRecord where
  id : String
  role : Option DVTDefaultRoles
  organizationId : String
  deriving DecidableEq, Repr

def userHasGlobalAccess (user : UserRecord) : Bool := user.role = some .superadmin

def userHasAdminAccess (user : UserRecord) : Bool :=
  user.role = some .superadmin ∨ user.role = some .admin

def canManageOrganization (actor : UserRecord) (organizationId : String) : Bool :=
  userHasGlobalAccess actor ∨ actor.organizationId = organizationId

structure AccessScope where
  organizationId : Option String
  ownerUserId : Option String

def getAccessScope (user : UserRecord) : AccessScope :=
  if userHasGlobalAccess user then ⟨none, none⟩
  else if userHasAdminAccess user then ⟨some user.organizationId, none⟩
  else ⟨some user.organizationId, some user.id⟩

inductive RequestError
  | http (statusCode : ℕ) (detail : String)
  | integrity
  deriving DecidableEq, Repr

def projectFolderMaxDepth : ℕ := 5

def folderNotFound (folderId : String) : RequestError :=
  .http 404 s!"Project folder with ID \"{folderId}\" not found"

def depthExceeded : RequestError :=
  .http 400 s!"Project folder depth cannot exceed {projectFolderMaxDepth}"

section

variable (folders : FolderTable)

def liveFolder (folderId : String) : Option ProjectFolderRecord :=
  (folders.get? folderId).filter fun folder => !folder.isDeleted

def getFolderById (folderId : String) (organizationId ownerUserId : Option String) :
    Option ProjectFolderRecord :=
  (liveFolder folders folderId).filter fun folder =>
    organizationId.all (folder.organizationId = ·) ∧ ownerUserId.all (folder.userId = ·)

def selectParentId (organizationId folderId : String) : Option String :=
  ((liveFolder folders folderId).filter fun folder => folder.organizationId = organizationId).bind
    ProjectFolderRecord.parentId

def selectChildIds (organizationId : String) (parentIds : List String) : List String :=
  (folders.entries.filter fun (_, folder) =>
    folder.parentId.any (· ∈ parentIds) ∧ folder.organizationId = organizationId ∧
      !folder.isDeleted).map Prod.fst

/-- `levels = max_depth + 1 - depth`, which is spent when `depth > max_depth`. -/
def folderDepthFrom (organizationId : String) : ℕ → ℕ → String → List String → Option ℕ
  | 0, _, _, _ => none
  | levels + 1, depth, currentId, seen =>
    if currentId ∈ seen then none
    else
      match selectParentId folders organizationId currentId with
      | none => some depth
      | some parentId => folderDepthFrom organizationId levels (depth + 1) parentId (currentId :: seen)

def getFolderDepth (folderId organizationId : String) (maxDepth : ℕ) : Option ℕ :=
  folderDepthFrom folders organizationId maxDepth 1 folderId []

def folderHasChildren (projectFolderIds : List String) (folderId : String) : Bool :=
  (folders.values.any fun folder => folder.parentId = some folderId ∧ !folder.isDeleted) ∨
    folderId ∈ projectFolderIds

def descendantFolderIdsFrom (organizationId : String) : ℕ → List String → List String → List String
  | 0, _, descendants => descendants
  | levels + 1, pending, descendants =>
    if pending = [] then descendants
    else
      let rows := selectChildIds folders organizationId pending
      let pending := rows.filter (· ∉ descendants)
      descendantFolderIdsFrom organizationId levels pending (descendants ++ pending)

def getDescendantFolderIds (folderId organizationId : String) (maxDepth : ℕ) : List String :=
  descendantFolderIdsFrom folders organizationId (maxDepth + 1) [folderId] []

def folderSubtreeDepthFrom (organizationId : String) : ℕ → ℕ → List String → List String → ℕ
  | 0, depth, _, _ => depth
  | levels + 1, depth, currentLevel, seen =>
    let rows := selectChildIds folders organizationId currentLevel
    let nextLevel := rows.filter (· ∉ seen)
    if nextLevel = [] then depth
    else folderSubtreeDepthFrom organizationId levels (depth + 1) nextLevel (seen ++ nextLevel)

def getFolderSubtreeDepth (folderId organizationId : String) (maxDepth : ℕ) : ℕ :=
  folderSubtreeDepthFrom folders organizationId maxDepth 1 [folderId] [folderId]

end

def normalizeFolderName (name : String) : Except RequestError String :=
  let normalized := String.ofList (stripSpace name.toList)
  if normalized = "" then .error (.http 422 "Folder name must not be empty") else .ok normalized

def getAccessibleFolder (folders : FolderTable) (user : UserRecord) (folderId : String) :
    Except RequestError ProjectFolderRecord :=
  let scope := getAccessScope user
  match getFolderById folders folderId scope.organizationId scope.ownerUserId with
  | none => .error (folderNotFound folderId)
  | some folder => .ok folder

def canUseParentFolderForTarget (user : UserRecord) (parent : ProjectFolderRecord)
    (ownerUserId organizationId : String) (allowCrossOrganization : Bool) : Bool :=
  if userHasGlobalAccess user then
    allowCrossOrganization ∨ parent.organizationId = organizationId
  else if userHasAdminAccess user then
    canManageOrganization user organizationId ∧ parent.organizationId = organizationId
  else parent.organizationId = organizationId ∧ parent.userId = ownerUserId

def validateParentFolder (folders : FolderTable) (user : UserRecord) (parentId : Option String)
    (ownerUserId organizationId : String) (subtreeDepth : ℕ) (allowCrossOrganization : Bool) :
    Except RequestError (Option ProjectFolderRecord) :=
  match parentId with
  | none => if projectFolderMaxDepth < subtreeDepth then .error depthExceeded else .ok none
  | some parentId =>
    match getAccessibleFolder folders user parentId with
    | .error e => .error e
    | .ok parent =>
      if !canUseParentFolderForTarget user parent ownerUserId organizationId
          allowCrossOrganization then .error (folderNotFound parentId)
      else
        match getFolderDepth folders parentId parent.organizationId projectFolderMaxDepth with
        | none => .error depthExceeded
        | some parentDepth =>
          if projectFolderMaxDepth < parentDepth + subtreeDepth then .error depthExceeded
          else .ok (some parent)

structure ProjectFolderCreate where
  name : String
  parentId : Option String

/-- An unset `name` and a `null` are the same; for `parent_id` they are not. -/
structure ProjectFolderUpdate where
  name : Option String
  parentId : Option (Option String)

def createProjectFolder (folders : FolderTable) (user : UserRecord) (newId : String)
    (data : ProjectFolderCreate) : Except RequestError FolderTable := do
  let name ← normalizeFolderName data.name
  let _ ← validateParentFolder folders user data.parentId user.id user.organizationId 1 false
  if newId ∈ folders.keys then .error .integrity
  else
    let folder : ProjectFolderRecord :=
      { name, parentId := data.parentId, userId := user.id, organizationId := user.organizationId }
    return folders.set newId folder

/-- The part of an update under `if "parent_id" in update_payload`. -/
def moveFolder (folders : FolderTable) (user : UserRecord) (folderId : String)
    (folder : ProjectFolderRecord) (newParentId : Option String) :
    Except RequestError ProjectFolderRecord :=
  if newParentId = some folderId then
    .error (.http 400 "Project folder cannot be moved into itself")
  else if newParentId.any
      (· ∈ getDescendantFolderIds folders folderId folder.organizationId projectFolderMaxDepth) then
    .error (.http 400 "Project folder cannot be moved into its descendant")
  else do
    let subtreeDepth :=
      getFolderSubtreeDepth folders folderId folder.organizationId projectFolderMaxDepth
    let _ ← validateParentFolder folders user newParentId folder.userId folder.organizationId
      subtreeDepth false
    return { folder with parentId := newParentId }

def updateProjectFolder (folders : FolderTable) (user : UserRecord) (folderId : String)
    (data : ProjectFolderUpdate) : Except RequestError FolderTable := do
  let folder ← getAccessibleFolder folders user folderId
  let name ← data.name.elim (pure folder.name) normalizeFolderName
  let folder := { folder with name }
  let folder ← data.parentId.elim (pure folder) (moveFolder folders user folderId folder)
  return folders.set folderId folder

def deleteProjectFolder (folders : FolderTable) (projectFolderIds : List String) (user : UserRecord)
    (folderId : String) : Except RequestError FolderTable := do
  let folder ← getAccessibleFolder folders user folderId
  if folderHasChildren folders projectFolderIds folderId then
    .error (.http 409 "Project folder must be empty before deletion")
  else return folders.set folderId { folder with isDeleted := true }

/-- A request, with the id `uuid4` gives and the folders that hold projects then. -/
inductive FolderRequest
  | create (user : UserRecord) (newId : String) (data : ProjectFolderCreate)
  | update (user : UserRecord) (folderId : String) (data : ProjectFolderUpdate)
  | delete (user : UserRecord) (folderId : String) (projectFolderIds : List String)

def handle (folders : FolderTable) : FolderRequest → Except RequestError FolderTable
  | .create user newId data => createProjectFolder folders user newId data
  | .update user folderId data => updateProjectFolder folders user folderId data
  | .delete user folderId projectFolderIds =>
    deleteProjectFolder folders projectFolderIds user folderId

/-- A request is one transaction; an error rolls it back. -/
def step (folders : FolderTable) (request : FolderRequest) : FolderTable :=
  match handle folders request with
  | .ok folders' => folders'
  | .error _ => folders

end Dvt.Folders
