import Dvt.Library.JsonText
import Dvt.Library.Segments
import Dvt.Library.Table
import Dvt.Pipelines.Graph

/-! The copy of a project: subgraphs, nodes, edges and service files. -/

namespace Dvt.Projects

open Library Pipelines

abbrev Text := List Char

structure Number where
  text : String
  zero : Bool

abbrev Json := JsonValue String Number

def truthy : Json → Bool
  | .null => false
  | .bool value => value
  | .num value => !value.zero
  | .str value => value ≠ ""
  | .arr items => !items.isEmpty
  | .obj fields => !fields.isEmpty

/-- `dict` of an array, which may raise, and `str` of what is no string. -/
structure Builtins where
  dictOf : List Json → Option (List (String × Json))
  repr : Json → String

inductive StoredInput
  | expr (value : String) (kind : ExpressionKind)
  | const (value : Json)
  | link (value : NodeInputLinkValue)

abbrev InputValues := Dict String (Option StoredInput)

structure NodeRow where
  uiId : String
  type : String
  name : String
  inputValues : InputValues
  storeEnabled : Option Bool := some false
  subgraphId : Option String := none

structure EdgeRow extends GraphEdgeRecord where
  subgraphId : Option String := none

structure FileObject where
  parentPath : Text
  name : Text
  isDir : Bool := false
  content : Option (List UInt8) := none
  contentType : Option String := none
  size : ℕ := 0
  sha256 : Option String := none
  deriving DecidableEq

def fileObjectSchema : Schema FileObject := .unique fun file => (file.parentPath, file.name)

structure StoredProject where
  nodes : List NodeRow
  edges : List EdgeRow
  subgraphs : List String
  files : Table fileObjectSchema
  nodup_nodes : (nodes.map NodeRow.uiId).Nodup
  nodup_subgraphs : subgraphs.Nodup

structure CopiedProject where
  nodes : List NodeRow
  edges : List EdgeRow
  subgraphs : List String
  files : Table fileObjectSchema

structure Uuids where
  project : String
  node : ℕ → String
  subgraph : ℕ → String
  node_injective : node.Injective
  subgraph_injective : subgraph.Injective
  node_plain : ∀ i, '/' ∉ (node i).toList ∧ '\\' ∉ (node i).toList

section

def isDvtServiceFilesConnection (fields : List (String × Json)) : Bool :=
  match fields.lookup "type" with
  | some (.str type) => type = "dvt_service_files"
  | _ => false

def extractDvtServiceFilesConnection (inputValues : InputValues) : Option (List (String × Json)) :=
  match inputValues.get? "connection" with
  | some (some (.const (.obj fields))) =>
    if isDvtServiceFilesConnection fields then some fields else none
  | _ => none

def copyRootPrefix (oldRootPrefix : Text) (newNodeUiId : String) : Text :=
  let parts := segments '/' (strip '/' oldRootPrefix)
  if 3 ≤ parts.length ∧ parts.head? = some "node-inputs".toList then
    joinSegments '/' ("node-inputs".toList :: newNodeUiId.toList :: parts.drop 2)
  else "node-inputs/".toList ++ newNodeUiId.toList ++ "/file".toList

variable (builtins : Builtins)

def connectionProperties (fields : List (String × Json)) : Option (List (String × Json)) :=
  match fields.lookup "properties" with
  | none => some []
  | some value =>
    if truthy value then
      match value with
      | .obj properties => some properties
      | .arr items => builtins.dictOf items
      | _ => none
    else some []

def rootPrefix (properties : List (String × Json)) : Text :=
  match properties.lookup "root_prefix" with
  | none => []
  | some (.str text) => text.toList
  | some value => if truthy value then (builtins.repr value).toList else []

structure RewrittenConnection where
  fields : List (String × Json)
  oldRootPrefix : Text
  newRootPrefix : Text

variable (organizationId newProjectId newNodeUiId : String)

def rewriteConnection (fields : List (String × Json)) : Option RewrittenConnection :=
  (connectionProperties builtins fields).map fun properties =>
    let oldRootPrefix := strip '/' (rootPrefix builtins properties)
    let newRootPrefix := copyRootPrefix oldRootPrefix newNodeUiId
    let properties := Dict.assign "root_prefix" (.str (String.ofList newRootPrefix))
      (Dict.assign "project_id" (.str newProjectId)
        (Dict.assign "organization_id" (.str organizationId) properties))
    let id := "dvt-service-files:" ++ newProjectId ++ ":" ++ newNodeUiId ++ ":" ++
      String.ofList (splitLast '/' newRootPrefix).2
    { fields := Dict.assign "properties" (.obj properties) (Dict.assign "id" (.str id) fields)
      oldRootPrefix
      newRootPrefix }

def rewriteDvtServiceFilesInputValues (inputValues : InputValues) :
    Option (InputValues × Option (Text × Text)) :=
  match extractDvtServiceFilesConnection inputValues with
  | none => some (inputValues, none)
  | some fields =>
    (rewriteConnection builtins organizationId newProjectId newNodeUiId fields).map fun connection =>
      (inputValues.set "connection" (some (.const (.obj connection.fields))),
        some (connection.oldRootPrefix, connection.newRootPrefix))

end

def replacePathPrefix (path oldPrefix newPrefix : Text) : Option Text :=
  if oldPrefix = [] then none
  else
    let normalized := strip '/' path
    if normalized = oldPrefix then some newPrefix
    else if (oldPrefix ++ ['/']).isPrefixOf normalized then
      some (newPrefix ++ normalized.drop oldPrefix.length)
    else none

def fullPath (file : FileObject) : Text := strip '/' (file.parentPath ++ '/' :: file.name)

def newPath (rootPrefixPairs : List (Text × Text)) (copiedPaths : List (Text × Text))
    (file : FileObject) : Option (Text × Text) :=
  rootPrefixPairs.findSome? fun pair =>
    (replacePathPrefix (fullPath file) pair.1 pair.2).bind fun path =>
      if splitLast '/' path ∈ copiedPaths then none else some (splitLast '/' path)

def copyFileObject (rootPrefixPairs : List (Text × Text)) (values : List FileObject)
    (file : FileObject) : List FileObject :=
  match newPath rootPrefixPairs (values.map fun value => (value.parentPath, value.name)) file with
  | none => values
  | some (parentPath, name) => values ++ [{ file with parentPath, name }]

def columnsFit (file : FileObject) : Bool := file.parentPath.length ≤ 2048 && file.name.length ≤ 255

def copyDvtServiceFileObjects (files : Table fileObjectSchema)
    (rootPrefixPairs : List (Text × Text)) : Option (Table fileObjectSchema) :=
  let values := files.rows.foldl (copyFileObject rootPrefixPairs) []
  if values.all columnsFit then Table.empty.insertAll values else none

section

def uiIdMap (ids : List String) (fresh : ℕ → String) : Dict String String :=
  ids.zipIdx.foldl (fun map e => map.set e.1 (fresh e.2)) .empty

def relink (map : Dict String String) (id : String) : String := (map.get? id).getD id

/-- What a copy is made from: the stored project and the fresh ids. -/
structure Copying extends StoredProject where
  builtins : Builtins
  organizationId : String
  uuids : Uuids

namespace Copying

variable (c : Copying)

def newNodeUiId (i : ℕ) : String := "node_" ++ c.uuids.node i

def newSubgraphUiId (i : ℕ) : String := "subgraph_" ++ c.uuids.subgraph i

def nodeUiIdMap : Dict String String := uiIdMap (c.nodes.map NodeRow.uiId) c.newNodeUiId

def subgraphUiIdMap : Dict String String := uiIdMap c.subgraphs c.newSubgraphUiId

def newUiId (id : String) : String := relink c.nodeUiIdMap id

/-- The insert does not name `store_enabled`, which gets its default. -/
def copyNode (newNodeUiId : String) (row : NodeRow) : Option (NodeRow × Option (Text × Text)) :=
  (rewriteDvtServiceFilesInputValues c.builtins c.organizationId c.uuids.project newNodeUiId
      row.inputValues).map fun rewritten =>
    ({ uiId := newNodeUiId
       type := row.type
       name := row.name
       inputValues := rewritten.1
       subgraphId := row.subgraphId.map (relink c.subgraphUiIdMap) },
      rewritten.2)

def copyEdge (row : EdgeRow) : EdgeRow where
  source := c.newUiId row.source
  sourceHandle := row.sourceHandle
  target := c.newUiId row.target
  targetHandle := row.targetHandle
  subgraphId := row.subgraphId.map (relink c.subgraphUiIdMap)

def copyProject : Option CopiedProject := do
  let nodes ← c.nodes.zipIdx.mapM fun row => c.copyNode (c.newNodeUiId row.2) row.1
  let files ← copyDvtServiceFileObjects c.files (nodes.filterMap Prod.snd)
  return {
    nodes := nodes.map Prod.fst
    edges := c.edges.map c.copyEdge
    subgraphs := c.subgraphs.zipIdx.map fun row => c.newSubgraphUiId row.2
    files }

end Copying

end

def sampleBuiltins : Builtins := ⟨fun _ => none, fun _ => ""⟩

def sampleUuids : Uuids where
  project := "copy"
  node i := String.ofList (List.replicate i 'a')
  subgraph i := String.ofList (List.replicate i 'a')
  node_injective i j h := by simpa using congrArg (fun id => id.toList.length) h
  subgraph_injective i j h := by simpa using congrArg (fun id => id.toList.length) h
  node_plain i := by simp [List.mem_replicate]

end Dvt.Projects
