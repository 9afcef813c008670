import Dvt.Library.Moves
import Dvt.ServiceFiles.Gateway
import Mathlib.Data.Char
import Mathlib.Data.List.Lex

/-! The storage gateway over an S3 bucket: keys and moves. -/

namespace Dvt.ObjectStorage

open Library
open Projects (Text)
open ServiceFiles (fromRaw)

abbrev Content := List UInt8

abbrev Bucket := Dict Text Content

inductive Failure
  | path (failure : ServiceFiles.Failure)
  | name (name : Text) (reason : String)
  | client (code : String)
  | operation (message : String)
  deriving DecidableEq, Repr

def Failure.reported (message : String) : Failure → Failure
  | client code => operation (message ++ code)
  | failure => failure

lemma mapError_eq_ok {ε ε' α : Type} {f : ε → ε'} {x : Except ε α} {a : α} :
    x.mapError f = .ok a ↔ x = .ok a := by
  cases x <;> simp [Except.mapError]

def relativePath (raw : Text) : Except Failure Text := (fromRaw raw).mapError .path

def entryName (raw : Text) : Except Failure Text :=
  let value := (stripSpace raw).map fun c => if c = '\\' then '/' else c
  if value = [] then .error (.name raw "name cannot be empty")
  else if '/' ∈ value then .error (.name value "name cannot contain path separators")
  else if value = ['.'] ∨ value = ['.', '.'] then .error (.name value "reserved path segment")
  else .ok value

def joinName (path rawName : Text) : Except Failure Text := do
  let name ← entryName rawName
  return joinSegments '/' ([path, name].filter (· ≠ []))

def nameOf (path : Text) : Except Failure Text :=
  if path = [] then .error (.path (.invalidPath path "root path does not have a name"))
  else .ok (splitLast '/' path).2

def parentOf (path : Text) : Except Failure Text :=
  if path = [] then .error (.path (.invalidPath path "root path does not have a parent"))
  else if '/' ∉ path then .ok []
  else .ok (splitLast '/' path).1

def withName (path rawName : Text) : Except Failure Text := do
  joinName (← parentOf path) rawName

def moveTo (path targetParentRaw : Text) : Except Failure Text := do
  let target ← relativePath targetParentRaw
  joinName target (← nameOf path)

def listKeys (b : Bucket) (pre : Text) : List Text :=
  (b.keys.filter pre.isPrefixOf).insertionSort (· ≤ ·)

/-- `head_object`; an empty key is refused, and a missing one is a `ClientError`. -/
def pathExists (b : Bucket) (key : Text) : Except Failure Bool :=
  if key = [] then .error (.operation "Invalid length for parameter Key")
  else .ok (b.get? key).isSome

/-- S3 refuses to copy an object onto itself; other stores may accept it. -/
def copyObject (ontoItself : Bool) (b : Bucket) (sourceKey destinationKey : Text) :
    Except Failure Bucket :=
  if sourceKey = destinationKey ∧ !ontoItself then .error (.client "InvalidRequest")
  else match b.get? sourceKey with
    | none => .error (.client "NoSuchKey")
    | some content => .ok (b.set destinationKey content)

structure Gateway where
  connectionPrefix : Text
  copiesOntoItself : Bool

namespace Gateway

variable (g : Gateway)

def basePrefix : Text := strip '/' g.connectionPrefix

def buildKey (path filename : Text) (trailingSlashForFolder : Bool) : Except Failure Text := do
  let relative ← relativePath path
  let names ← if filename = [] then pure [] else do pure [← entryName filename]
  let key := joinSegments '/' ([g.basePrefix] ++ [relative].filter (· ≠ []) ++ names)
  return if trailingSlashForFolder ∧ key ≠ [] ∧ key.getLast? ≠ some '/' then key ++ ['/'] else key

def moveSingleObject (b : Bucket) (sourceKey destinationKey : Text) : Except Failure Bucket := do
  let copied ← copyObject g.copiesOntoItself b sourceKey destinationKey
  return copied.erase sourceKey

def movePrefix (b : Bucket) (sourcePrefix destinationPrefix : Text) : Except Failure Bucket :=
  match listKeys b sourcePrefix with
  | [] => .error (.operation "Source path does not exist")
  | keys => keys.foldlM (fun b sourceKey =>
      g.moveSingleObject b sourceKey (destinationPrefix ++ sourceKey.drop sourcePrefix.length)) b

def moveBetweenPaths (b : Bucket) (sourcePath destinationPath : Text) : Except Failure Bucket :=
  if sourcePath = destinationPath then .ok b
  else do
    let sourceKey ← g.buildKey sourcePath [] false
    let destinationKey ← g.buildKey destinationPath [] false
    if ← pathExists b sourceKey then g.moveSingleObject b sourceKey destinationKey
    else do
      let sourcePrefix ← g.buildKey sourcePath [] true
      match listKeys b sourcePrefix with
      | [] => .error (.operation "Source path does not exist")
      | _ :: _ => do
        let destinationPrefix ← g.buildKey destinationPath [] true
        g.movePrefix b sourcePrefix destinationPrefix

def renamePath (b : Bucket) (path newName : Text) : Except Failure Bucket :=
  Except.mapError (.reported "Failed to rename S3 object: ") do
    let sourcePath ← relativePath path
    g.moveBetweenPaths b sourcePath (← withName sourcePath newName)

def movePath (b : Bucket) (path targetPath : Text) : Except Failure Bucket :=
  Except.mapError (.reported "Failed to move S3 object: ") do
    let sourcePath ← relativePath path
    g.moveBetweenPaths b sourcePath (← moveTo sourcePath targetPath)

end Gateway

end Dvt.ObjectStorage
