import Dvt.Library.Decimals
import Dvt.Library.Segments
import Dvt.Pipelines.Processor
import Mathlib.Data.List.Sort
import Mathlib.Data.Prod.Lex
import Mathlib.Data.String.Basic

/-! The stored form of a generation, the plan that restores it and the rebuilt frame. -/

namespace Dvt.Caching

open Library
open Pipelines (DataFrameExecutionOrder)

variable {a b : DataFrameExecutionOrder}

def orderKey (order : DataFrameExecutionOrder) : ℤ ×ₗ String :=
  toLex (order.queuedAtUs, order.taskId)

lemma orderKey_injective : Function.Injective orderKey := by
  intro a b h
  obtain ⟨hq, ht⟩ := Prod.mk.inj (toLex.injective h)
  cases a
  cases b
  simp_all

lemma newer_iff : a.newer b = true ↔ orderKey b < orderKey a := by
  simp [DataFrameExecutionOrder.newer, orderKey, Prod.Lex.toLex_lt_toLex]

def dataframeCacheFormatVersion : ℕ := 3

structure DataFrameCachePolicy where
  maxPendingPartitions : ℕ := 32
  maxPendingBytes : ℕ := 128 * 1024 * 1024
  maxRestoreBatchPartitions : ℕ := 32
  maxRestoreBatchBytes : ℕ := 2 * 1024 * 1024
  pendingPartitions_pos : 0 < maxPendingPartitions := by decide
  pendingBytes_pos : 0 < maxPendingBytes := by decide
  restoreBatchPartitions_pos : 0 < maxRestoreBatchPartitions := by decide
  restoreBatchBytes_pos : 0 < maxRestoreBatchBytes := by decide

inductive Key
  | active (projectId nodeId : String)
  | snapshot (projectId nodeId generationId : String)
  | manifest (projectId nodeId outputName generationId : String)
  | partition (projectId nodeId outputName generationId : String) (partNo : ℕ)
  deriving DecidableEq

namespace Key

def parts : Key → List String
  | active projectId nodeId => ["df", projectId, nodeId, "active"]
  | snapshot projectId nodeId generationId => ["df", projectId, nodeId, generationId, "snapshot"]
  | manifest projectId nodeId outputName generationId =>
    ["df", projectId, nodeId, outputName, generationId, "manifest"]
  | partition projectId nodeId outputName generationId partNo =>
    ["df", projectId, nodeId, outputName, generationId, "part", String.ofList (str partNo)]

/-- The key as it is sent to the store. -/
def text (key : Key) : List Char := joinSegments ':' (key.parts.map String.toList)

def ids : Key → List String
  | active projectId nodeId => [projectId, nodeId]
  | snapshot projectId nodeId generationId | manifest projectId nodeId _ generationId
  | partition projectId nodeId _ generationId _ => [projectId, nodeId, generationId]

def Plain (key : Key) : Prop := ∀ id ∈ key.ids, ':' ∉ id.toList

lemma splitOn_toList_inj {text text' : String} :
    text.toList.splitOn ':' = text'.toList.splitOn ':' ↔ text = text' := by
  refine ⟨fun h => ?_, fun h => h ▸ rfl⟩
  have hjoined := congrArg (List.intercalate [':']) h
  rwa [List.intercalate_splitOn, List.intercalate_splitOn, String.toList_inj] at hjoined

theorem text_inj {key key' : Key} (hkey : key.Plain) (hkey' : key'.Plain)
    (h : key.text = key'.text) : key = key' := by
  have hcolon : ∀ n : ℕ, ':' ∉ str n := fun n hmem => by cases isDigit_of_mem_toDigits hmem
  have hstr : ∀ m n : ℕ, str m = str n → m = n := fun _ _ heq => Int.ofNat.inj (str_injective heq)
  have hmanifest : ∀ n : ℕ, str n ≠ "manifest".toList := fun n heq => by
    cases (int_str n).symm.trans (congrArg int heq)
  have hs := congrArg (List.splitOn ':') h
  rw [text, text, splitOn_joinSegments_flatMap (by cases key <;> simp [parts]),
    splitOn_joinSegments_flatMap (by cases key' <;> simp [parts])] at hs
  -- the name of an output may hold colons, so what follows the node id is read from its end
  have hr := congrArg (fun pieces => (pieces.drop 3).reverse) hs
  cases key <;> cases key' <;> simp [Plain, ids] at hkey hkey' <;>
    simp [parts, splitOn_of_notMem, hkey, hkey', hcolon, splitOn_toList_inj, String.toList_inj]
      at hs hr ⊢ <;> grind

end Key

inductive CacheGenerationState
  | writing | ready | aborted | invalid
  deriving DecidableEq, Repr

structure DataFramePartitionDescriptor where
  partNo : ℕ
  cacheKey : Key
  rows : ℕ
  payloadBytes : ℕ
  deriving DecidableEq

structure DataFrameCacheManifest where
  formatVersion : ℕ
  projectId : String
  nodeId : String
  outputName : String
  generationId : String
  nodeRuntimeFingerprint : String
  schemaFingerprint : String
  frameMeta : String
  npartitions : ℕ
  partitions : List DataFramePartitionDescriptor
  rowsPerPartition : List ℕ
  knownDivisions : Bool
  divisions : Option (List String)
  state : CacheGenerationState
  deriving DecidableEq

def DataFrameCacheManifest.ready (manifest : DataFrameCacheManifest)
    (partitions : List DataFramePartitionDescriptor) : Option DataFrameCacheManifest :=
  let ordered := partitions.insertionSort fun a b => a.partNo ≤ b.partNo
  if ordered.length ≠ manifest.npartitions then none
  else if ordered.map DataFramePartitionDescriptor.partNo ≠ List.range manifest.npartitions then none
  else some { manifest with
    partitions := ordered
    rowsPerPartition := ordered.map DataFramePartitionDescriptor.rows
    state := .ready }

def DataFrameCacheManifest.aborted (manifest : DataFrameCacheManifest) : DataFrameCacheManifest :=
  { manifest with state := .aborted }

/-- What a snapshot keeps of its execution. -/
structure NodeExecution where
  projectId : String
  nodeId : String
  nodeName : String
  nodeRuntimeFingerprint : String
  outputNames : List String
  dataframeOutputNames : List String
  nonDataframeOutputs : Dict String String
  metadata : Dict String (Option String)
  deriving DecidableEq

structure DataFrameExecutionSnapshot extends NodeExecution where
  formatVersion : ℕ
  generationId : String
  executionOrder : Option DataFrameExecutionOrder
  deriving DecidableEq

structure ActiveDataFrameGeneration where
  formatVersion : ℕ
  generationId : String
  executionOrder : Option DataFrameExecutionOrder
  deriving DecidableEq

abbrev Bytes := List UInt8

inductive Entry
  | active (generation : ActiveDataFrameGeneration)
  | snapshot (snapshot : DataFrameExecutionSnapshot)
  | manifest (manifest : DataFrameCacheManifest)
  | partition (payload : Bytes)
  deriving DecidableEq

abbrev Store := Dict Key Entry

structure Codec (α : Type) where
  encode : α → Option Bytes
  decode : Bytes → Option α
  rows : α → ℕ
  schemaFingerprint : String → String
  decode_encode : ∀ frame payload, encode frame = some payload → decode payload = some frame

section

variable {α : Type} (codec : Codec α)

structure RestoreRequest where
  projectId : String
  nodeId : String
  nodeName : String
  nodeRuntimeFingerprint : Option String
  expectedOutputNames : List String

structure DataFrameRestorePlan where
  snapshot : DataFrameExecutionSnapshot
  manifests : Dict String DataFrameCacheManifest

def manifestIsCompatible (manifest : DataFrameCacheManifest)
    (projectId nodeId outputName generationId nodeRuntimeFingerprint : String) : Bool :=
  manifest.formatVersion = dataframeCacheFormatVersion ∧ manifest.state = .ready ∧
    manifest.projectId = projectId ∧ manifest.nodeId = nodeId ∧
    manifest.outputName = outputName ∧ manifest.generationId = generationId ∧
    manifest.nodeRuntimeFingerprint = nodeRuntimeFingerprint ∧ 0 < manifest.npartitions ∧
    manifest.partitions.length = manifest.npartitions ∧
    manifest.rowsPerPartition.length = manifest.npartitions ∧
    manifest.partitions.map DataFramePartitionDescriptor.partNo = List.range manifest.npartitions ∧
    codec.schemaFingerprint manifest.frameMeta = manifest.schemaFingerprint ∧
    if manifest.knownDivisions then
      manifest.divisions.any fun divisions => divisions.length = manifest.npartitions + 1
    else manifest.divisions = none

def snapshotIsCompatible (request : RestoreRequest) (generationId : String)
    (snapshot : DataFrameExecutionSnapshot) : Bool :=
  snapshot.formatVersion = dataframeCacheFormatVersion ∧ snapshot.projectId = request.projectId ∧
    snapshot.nodeId = request.nodeId ∧ snapshot.generationId = generationId ∧
    snapshot.nodeName = request.nodeName ∧
    (request.nodeRuntimeFingerprint.all fun fingerprint =>
      snapshot.nodeRuntimeFingerprint = fingerprint) ∧
    snapshot.outputNames = request.expectedOutputNames ∧
    (∀ name ∈ snapshot.nonDataframeOutputs.keys,
      name ∈ request.expectedOutputNames ∧ name ∉ snapshot.dataframeOutputNames) ∧
    (∀ name ∈ request.expectedOutputNames, name ∉ snapshot.dataframeOutputNames →
      name ∈ snapshot.nonDataframeOutputs.keys) ∧
    ∀ name ∈ snapshot.dataframeOutputNames, (snapshot.metadata.get? name).join ≠ none

def readManifests (reads : ℕ → Store) (projectId nodeId generationId fingerprint : String) :
    ℕ → List String → Dict String DataFrameCacheManifest →
      Option (Dict String DataFrameCacheManifest)
  | _, [], manifests => some manifests
  | i, outputName :: rest, manifests =>
    match (reads i).get? (.manifest projectId nodeId outputName generationId) with
    | some (.manifest manifest) =>
      if manifestIsCompatible codec manifest projectId nodeId outputName generationId fingerprint then
        readManifests reads projectId nodeId generationId fingerprint (i + 1) rest
          (manifests.set outputName manifest)
      else none
    | _ => none

def hasMany (store : Store) (keys : List Key) : Bool := keys.all fun key => key ∈ store.keys

/-- The `i`-th access to the store finds it as `reads i`. -/
def getRestorePlan (reads : ℕ → Store) (request : RestoreRequest) : Option DataFrameRestorePlan :=
  match (reads 0).get? (.active request.projectId request.nodeId) with
  | some (.active active) =>
    if active.formatVersion ≠ dataframeCacheFormatVersion then none
    else
      match (reads 1).get? (.snapshot request.projectId request.nodeId active.generationId) with
      | some (.snapshot snapshot) =>
        if snapshotIsCompatible request active.generationId snapshot then
          let fingerprint := (request.nodeRuntimeFingerprint.filter (· ≠ "")).getD
            snapshot.nodeRuntimeFingerprint
          (readManifests codec reads request.projectId request.nodeId active.generationId
            fingerprint 2 snapshot.dataframeOutputNames .empty).bind fun manifests =>
              let keys := manifests.values.flatMap fun manifest =>
                manifest.partitions.map DataFramePartitionDescriptor.cacheKey
              if hasMany (reads (2 + snapshot.dataframeOutputNames.length)) keys then
                some ⟨snapshot, manifests⟩
              else none
        else none
      | _ => none
  | _ => none

def buildRestoreBatches (policy : DataFrameCachePolicy) :
    List DataFramePartitionDescriptor → List DataFramePartitionDescriptor → ℕ →
      List (List DataFramePartitionDescriptor)
  | [], current, _ => if current = [] then [] else [current]
  | descriptor :: rest, current, currentBytes =>
    let exceedsCount := policy.maxRestoreBatchPartitions ≤ current.length
    let exceedsBytes := current ≠ [] ∧
      policy.maxRestoreBatchBytes < currentBytes + descriptor.payloadBytes
    if exceedsCount ∨ exceedsBytes then
      current :: buildRestoreBatches policy rest [descriptor] descriptor.payloadBytes
    else
      buildRestoreBatches policy rest (current ++ [descriptor])
        (currentBytes + descriptor.payloadBytes)

def loadPartition (store : Store) (cacheKey : Key) : Option α :=
  match store.get? cacheKey with
  | some (.partition payload) => codec.decode payload
  | _ => none

def loadBatches (loads : ℕ → Store) : ℕ → List (List DataFramePartitionDescriptor) → Option (List α)
  | _, [] => some []
  | i, batch :: rest =>
    (batch.mapM fun descriptor => loadPartition codec (loads i) descriptor.cacheKey).bind
      fun partitions => (loadBatches loads (i + 1) rest).map (partitions ++ ·)

def buildLazyDataframe (loads : ℕ → Store) (manifest : DataFrameCacheManifest)
    (policy : DataFrameCachePolicy) : Option (List α) :=
  loadBatches codec loads 0 (buildRestoreBatches policy manifest.partitions [] 0)

end

end Dvt.Caching
