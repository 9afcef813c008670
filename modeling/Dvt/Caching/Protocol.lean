import Dvt.Caching.Generations
import Dvt.Library.Runs

/-! The cache writers, and the calls that stage, commit, abort and activate generations. -/

namespace Dvt.Caching

open Library
open Pipelines (DataFrameExecutionOrder)

structure Execution extends NodeExecution where
  executionOrder : DataFrameExecutionOrder

/-- The executions by generation id, each of which `uuid4` gives out once. -/
abbrev Executions := String → Execution

/-- An output of an execution, which one writer stores. -/
structure OutputId where
  generationId : String
  outputName : String
  deriving DecidableEq

section

variable (exec : Executions) (generationId : String) (id : OutputId)

def activeKey : Key := .active (exec generationId).projectId (exec generationId).nodeId

def snapshotKey : Key :=
  .snapshot (exec generationId).projectId (exec generationId).nodeId generationId

def manifestKey : Key :=
  .manifest (exec id.generationId).projectId (exec id.generationId).nodeId id.outputName
    id.generationId

def partitionKey (partNo : ℕ) : Key :=
  .partition (exec id.generationId).projectId (exec id.generationId).nodeId id.outputName
    id.generationId partNo

def executionSnapshot : DataFrameExecutionSnapshot :=
  { (exec generationId).toNodeExecution with
    formatVersion := dataframeCacheFormatVersion
    generationId
    executionOrder := some (exec generationId).executionOrder }

end

def candidate (generationId : String) (order : DataFrameExecutionOrder) :
    ActiveDataFrameGeneration where
  formatVersion := dataframeCacheFormatVersion
  generationId := generationId
  executionOrder := some order

/-- An access to the store; it may raise before or after it took effect. -/
inductive Outcome
  | ok
  | raised (applied : Bool)
  deriving DecidableEq, Repr

inductive Caller
  | staging
  | writer (outputName : String)
  deriving DecidableEq, Repr

inductive Pc
  | putSnapshot
  | getWriting (outputName : String) (partitions : List DataFramePartitionDescriptor)
  | putReady (outputName : String) (ready : DataFrameCacheManifest)
  | getSnapshot
  | getManifest (snapshot : DataFrameExecutionSnapshot) (order : DataFrameExecutionOrder)
      (outputName : String) (rest : List String)
  | getActive (order : DataFrameExecutionOrder)
  | compareAndSet (order : DataFrameExecutionOrder) (expected : Option Entry)
  | getAborting (outputName : String)
  | putAborted (outputName : String) (aborted : DataFrameCacheManifest)
  | returned (committed : Bool)
  deriving DecidableEq

structure Call where
  generationId : String
  caller : Caller
  pc : Pc
  deriving DecidableEq

def OutputId.call (id : OutputId) (pc : Pc) : Call := ⟨id.generationId, .writer id.outputName, pc⟩

section

variable (exec : Executions)

def Call.onError (call : Call) : Pc :=
  match call.caller, call.pc with
  | .staging, _ => .returned false
  | .writer _, .getAborting _ => .returned false
  | .writer _, .putAborted _ _ => .returned false
  | .writer _, .returned _ => .returned false
  | .writer outputName, _ => .getAborting outputName

def Call.onReturn (call : Call) : Pc :=
  match call.caller with
  | .staging => .returned false
  | .writer _ => .returned true

def checkManifests (snapshot : DataFrameExecutionSnapshot) (order : DataFrameExecutionOrder) :
    List String → Pc
  | [] => .getActive order
  | outputName :: rest => .getManifest snapshot order outputName rest

def supersedes (current : Option Entry) (order : DataFrameExecutionOrder) : Bool :=
  match current with
  | some (.active active) =>
    active.formatVersion = dataframeCacheFormatVersion ∧
      (active.executionOrder.any fun existing => existing.newer order ∨ existing = order)
  | _ => false

def Call.write (store : Store) (call : Call) : Option (Key × Entry) :=
  let generationId := call.generationId
  match call.pc with
  | .putSnapshot =>
    some (snapshotKey exec generationId, .snapshot (executionSnapshot exec generationId))
  | .putReady outputName ready => some (manifestKey exec ⟨generationId, outputName⟩, .manifest ready)
  | .compareAndSet order expected =>
    if store.get? (activeKey exec generationId) = expected then
      some (activeKey exec generationId, .active (candidate generationId order))
    else none
  | .putAborted outputName aborted =>
    some (manifestKey exec ⟨generationId, outputName⟩, .manifest aborted)
  | _ => none

def Call.next (store : Store) (call : Call) : Pc :=
  let generationId := call.generationId
  match call.pc with
  | .putSnapshot => .getSnapshot
  | .getWriting outputName partitions =>
    match store.get? (manifestKey exec ⟨generationId, outputName⟩) with
    | some (.manifest manifest) =>
      if manifest.state = .writing then
        (manifest.ready partitions).elim call.onError (.putReady outputName)
      else call.onError
    | _ => call.onError
  | .putReady _ _ => .getSnapshot
  | .getSnapshot =>
    match store.get? (snapshotKey exec generationId) with
    | some (.snapshot snapshot) =>
      if snapshot.formatVersion = dataframeCacheFormatVersion then
        snapshot.executionOrder.elim call.onReturn fun order =>
          checkManifests snapshot order snapshot.dataframeOutputNames
      else call.onReturn
    | _ => call.onReturn
  | .getManifest snapshot order outputName rest =>
    match store.get? (manifestKey exec ⟨generationId, outputName⟩) with
    | some (.manifest manifest) =>
      if manifest.state = .ready ∧ manifest.formatVersion = dataframeCacheFormatVersion ∧
          manifest.nodeRuntimeFingerprint = snapshot.nodeRuntimeFingerprint then
        checkManifests snapshot order rest
      else call.onReturn
    | _ => call.onReturn
  | .getActive order =>
    let current := store.get? (activeKey exec generationId)
    if supersedes current order then call.onReturn else .compareAndSet order current
  | .compareAndSet order expected =>
    if store.get? (activeKey exec generationId) = expected then call.onReturn else .getActive order
  | .getAborting outputName =>
    match store.get? (manifestKey exec ⟨generationId, outputName⟩) with
    | some (.manifest manifest) => .putAborted outputName manifest.aborted
    | _ => .returned false
  | .putAborted _ _ => .returned false
  | .returned _ => .returned false

end

inductive UploadState
  | queued | stored | failed
  deriving DecidableEq, Repr

structure Upload where
  partNo : ℕ
  rows : ℕ
  payload : Bytes
  state : UploadState
  deriving DecidableEq

structure Writer where
  npartitions : ℕ
  pending : List Upload := []
  descriptors : Dict ℕ DataFramePartitionDescriptor := .empty
  firstError : Bool := false
  committed : Bool := false

inductive Record (α : Type)
  | submitted (id : OutputId) (partNo : ℕ) (frame : α)
  | failed (id : OutputId) (partNo : ℕ)
  | committed (id : OutputId)

/-- The log is newest first. -/
structure State (α : Type) where
  store : Store := .empty
  writers : Dict OutputId Writer := .empty
  calls : List Call := []
  log : List (Record α) := []

structure Frames where
  npartitions : ℕ
  frameMeta : String
  knownDivisions : Bool
  divisions : Option (List String)

inductive Event (α : Type)
  | begin (id : OutputId) (frames : Frames) (outcome : Outcome)
  | submit (id : OutputId) (partNo : ℕ) (frame : α) (accepted : Bool)
  | upload (id : OutputId) (i : ℕ) (outcome : Outcome)
  | done (id : OutputId) (i : ℕ)
  | finish (id : OutputId)
  | abort (id : OutputId)
  | stage (generationId : String)
  | advance (i : ℕ) (outcome : Outcome)

section

variable {α : Type} (codec : Codec α) (policy : DataFrameCachePolicy) (exec : Executions)

def writingManifest (id : OutputId) (frames : Frames) : DataFrameCacheManifest where
  formatVersion := dataframeCacheFormatVersion
  projectId := (exec id.generationId).projectId
  nodeId := (exec id.generationId).nodeId
  outputName := id.outputName
  generationId := id.generationId
  nodeRuntimeFingerprint := (exec id.generationId).nodeRuntimeFingerprint
  schemaFingerprint := codec.schemaFingerprint frames.frameMeta
  frameMeta := frames.frameMeta
  npartitions := frames.npartitions
  partitions := []
  rowsPerPartition := []
  knownDivisions := frames.knownDivisions
  divisions := if frames.knownDivisions then frames.divisions else none
  state := .writing

def put (outcome : Outcome) (store : Store) (write : Option (Key × Entry)) : Store :=
  match outcome, write with
  | .raised false, _ => store
  | _, none => store
  | _, some (key, entry) => store.set key entry

def Writer.lacksCapacity (writer : Writer) (payloadBytes : ℕ) : Bool :=
  writer.pending ≠ [] ∧ (policy.maxPendingPartitions ≤ writer.pending.length ∨
      policy.maxPendingBytes < (writer.pending.flatMap Upload.payload).length + payloadBytes)

def Writer.recordError (writer : Writer) : Writer := { writer with firstError := true }

def Upload.descriptor (id : OutputId) (upload : Upload) : DataFramePartitionDescriptor where
  partNo := upload.partNo
  cacheKey := partitionKey exec id upload.partNo
  rows := upload.rows
  payloadBytes := upload.payload.length

def Writer.done (id : OutputId) (writer : Writer) (i : ℕ) : Writer :=
  match writer.pending[i]? with
  | some upload =>
    let pending := writer.pending.eraseIdx i
    match upload.state with
    | .queued => writer
    | .stored => { writer with
        pending
        descriptors := writer.descriptors.set upload.partNo (upload.descriptor exec id) }
    | .failed => { writer with pending, firstError := true }
  | none => writer

def State.submit (s : State α) (id : OutputId) (writer : Writer) (partNo : ℕ) (frame : α)
    (accepted : Bool) : State α :=
  match codec.encode frame with
  | none => { s with
      writers := s.writers.set id writer.recordError
      log := .failed id partNo :: s.log }
  | some payload =>
    if writer.lacksCapacity policy payload.length then s
    else if accepted then { s with
      writers := s.writers.set id { writer with
        pending := writer.pending ++ [⟨partNo, codec.rows frame, payload, .queued⟩] }
      log := .submitted id partNo frame :: s.log }
    else { s with
      writers := s.writers.set id writer.recordError
      log := .failed id partNo :: s.log }

def State.upload (s : State α) (id : OutputId) (writer : Writer) (i : ℕ) (outcome : Outcome) :
    State α :=
  match writer.pending[i]? with
  | some upload =>
    if upload.state = .queued then
      let state := if outcome = .ok then UploadState.stored else .failed
      { s with
        store := put outcome s.store
          (some (partitionKey exec id upload.partNo, .partition upload.payload))
        writers := s.writers.set id
          { writer with pending := writer.pending.set i { upload with state } }
        log := if outcome = .ok then s.log else .failed id upload.partNo :: s.log }
    else s
  | none => s

def State.finish (s : State α) (id : OutputId) (writer : Writer) : State α :=
  if writer.pending ≠ [] then s
  else if writer.firstError ∨ writer.descriptors.entries.length ≠ writer.npartitions then
    { s with calls := s.calls ++ [id.call (.getAborting id.outputName)] }
  else { s with
    calls := s.calls ++ [id.call (.getWriting id.outputName writer.descriptors.values)]
    log := .committed id :: s.log }

def settle (call : Call) (writers : Dict OutputId Writer) : Dict OutputId Writer :=
  match call.caller, call.pc with
  | .writer outputName, .returned true =>
    (writers.get? ⟨call.generationId, outputName⟩).elim writers fun writer =>
      writers.set ⟨call.generationId, outputName⟩ { writer with committed := true }
  | _, _ => writers

def State.advance (s : State α) (i : ℕ) (call : Call) (outcome : Outcome) : State α :=
  let pc := if outcome = .ok then call.next exec s.store else call.onError
  { s with
    store := put outcome s.store (call.write exec s.store)
    writers := settle call s.writers
    calls := s.calls.set i { call with pc } }

def State.step (s : State α) : Event α → State α
  | .begin id frames outcome =>
    if frames.npartitions = 0 ∨ id ∈ s.writers.keys then s
    else
      let manifest := writingManifest codec exec id frames
      { s with
        store := put outcome s.store (some (manifestKey exec id, .manifest manifest))
        writers :=
          if outcome = .ok then s.writers.set id { npartitions := frames.npartitions }
          else s.writers }
  | .submit id partNo frame accepted =>
    match s.writers.get? id with
    | some writer =>
      if writer.committed then s else s.submit codec policy id writer partNo frame accepted
    | none => s
  | .upload id i outcome =>
    (s.writers.get? id).elim s fun writer => s.upload exec id writer i outcome
  | .done id i =>
    (s.writers.get? id).elim s fun writer =>
      { s with writers := s.writers.set id (writer.done exec id i) }
  | .finish id =>
    match s.writers.get? id with
    | some writer => if writer.committed then s else s.finish id writer
    | none => s
  | .abort id =>
    match s.writers.get? id with
    | some writer =>
      if writer.committed then s
      else { s with calls := s.calls ++ [id.call (.getAborting id.outputName)] }
    | none => s
  | .stage generationId =>
    let execution := exec generationId
    if execution.dataframeOutputNames ≠ [] ∧
        ∀ name ∈ execution.dataframeOutputNames, (execution.metadata.get? name).join ≠ none then
      { s with calls := s.calls ++ [⟨generationId, .staging, .putSnapshot⟩] }
    else s
  | .advance i outcome => (s.calls[i]?).elim s fun call => s.advance exec i call outcome

end

end Dvt.Caching
