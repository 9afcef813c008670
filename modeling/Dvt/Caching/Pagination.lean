import Dvt.Caching.Generations
import Mathlib.Algebra.Ring.Nat

/-! A page of a cached dataframe against the rows of its partitions. -/

namespace Dvt.Caching

open Library List

inductive EntryError
  | activeNotFound | activeIncompatible | manifestNotFound | manifestIncompatible
  | partitionsMissing | partitionMissing (partNo : ℕ)
  deriving DecidableEq

structure GetDataFrameEntryResult (ρ : Type) where
  dataframe : List ρ
  totalRows : ℕ
  totalPartitions : ℕ
  deriving DecidableEq

section

variable {ρ : Type} (codec : Codec (List ρ)) (metaRows : String → List ρ) (store : Store)

def readPartitions : List DataFramePartitionDescriptor → ℕ → ℕ → List ρ → Except EntryError (List ρ)
  | [], _, _, cached => .ok cached
  | entry :: rest, offset, limit, cached =>
    if limit = 0 then .ok cached
    else if entry.rows ≤ offset then readPartitions rest (offset - entry.rows) limit cached
    else match loadPartition codec store entry.cacheKey with
      | none => .error (.partitionMissing entry.partNo)
      | some part =>
        let sliced := (part.drop offset).take limit
        readPartitions rest 0 (limit - sliced.length) (cached ++ sliced)

def getDataFrameEntry (projectId nodeId outputName : String) (offset limit : ℤ) :
    Except EntryError (GetDataFrameEntryResult ρ) :=
  match store.get? (.active projectId nodeId) with
  | none => .error .activeNotFound
  | some (.active active) =>
    if active.formatVersion ≠ dataframeCacheFormatVersion then .error .activeIncompatible
    else match store.get? (.manifest projectId nodeId outputName active.generationId) with
      | none => .error .manifestNotFound
      | some (.manifest manifest) =>
        if manifest.formatVersion ≠ dataframeCacheFormatVersion ∨ manifest.state ≠ .ready ∨
            manifest.projectId ≠ projectId ∨ manifest.nodeId ≠ nodeId ∨
            manifest.outputName ≠ outputName ∨ manifest.generationId ≠ active.generationId ∨
            manifest.partitions.length ≠ manifest.npartitions then .error .manifestIncompatible
        else if !hasMany store (manifest.partitions.map (·.cacheKey)) then .error .partitionsMissing
        else (readPartitions codec store manifest.partitions offset.toNat limit.toNat
          (metaRows manifest.frameMeta)).map fun dataframe =>
            ⟨dataframe, manifest.rowsPerPartition.sum, manifest.npartitions⟩
      | some _ => .error .manifestIncompatible
  | some _ => .error .activeIncompatible

def Stores (entry : DataFramePartitionDescriptor) (frame : List ρ) : Prop :=
  loadPartition codec store entry.cacheKey = some frame ∧ entry.rows = frame.length

structure Committed (active : ActiveDataFrameGeneration) (manifest : DataFrameCacheManifest)
    (frames : List (List ρ)) : Prop where
  activated : store.get? (.active manifest.projectId manifest.nodeId) = some (.active active)
  generation : manifest.generationId = active.generationId
  stored : store.get? (.manifest manifest.projectId manifest.nodeId manifest.outputName
    active.generationId) = some (.manifest manifest)
  version : active.formatVersion = dataframeCacheFormatVersion ∧
    manifest.formatVersion = dataframeCacheFormatVersion
  ready : ∃ (writing : DataFrameCacheManifest) (partitions : List DataFramePartitionDescriptor),
    writing.ready partitions = some manifest
  frameMeta : metaRows manifest.frameMeta = []
  partitions : List.Forall₂ (Stores codec store) manifest.partitions frames

end

variable {ρ : Type} {codec : Codec (List ρ)} {metaRows : String → List ρ} {store : Store}
  {active : ActiveDataFrameGeneration} {manifest : DataFrameCacheManifest}
  {entries : List DataFramePartitionDescriptor} {frames : List (List ρ)}

section

variable (h : List.Forall₂ (Stores codec store) entries frames)

include h

lemma readPartitions_eq (offset limit : ℕ)
    (cached : List ρ) : readPartitions codec store entries offset limit cached =
      .ok (cached ++ (frames.flatten.drop offset).take limit) := by
  induction h generalizing offset limit cached with
  | nil => simp [readPartitions]
  | @cons entry frame entries frames hentry _ ih =>
    obtain ⟨hload, hrows⟩ := hentry
    rw [readPartitions, flatten_cons, drop_append]
    split_ifs with hl hskip
    · simp [hl]
    · have hnil : frame.drop offset = [] := drop_eq_nil_of_le (hrows ▸ hskip)
      rw [ih, hnil, nil_append, hrows]
    · have hz : offset - frame.length = 0 := by omega
      rw [hload]
      simp [ih, hz, take_append]
      omega

lemma hasMany_of_stores : hasMany store (entries.map (·.cacheKey)) = true := by
  induction h with
  | nil => rfl
  | @cons entry frame entries frames hentry _ ih =>
    have hl := hentry.1
    rw [loadPartition] at hl
    split at hl
    · next payload hget =>
      have hkey : entry.cacheKey ∈ store.keys := Dict.mem_keys.mpr ⟨_, hget⟩
      simpa [hasMany, hkey] using ih
    · cases hl

end

theorem page_of_committed (h : Committed codec metaRows store active manifest frames)
    (offset limit : ℤ) : manifest.partitions.map (·.partNo) = range manifest.npartitions ∧ ∃ result,
      getDataFrameEntry codec metaRows store manifest.projectId manifest.nodeId manifest.outputName
          offset limit = .ok result ∧
        result.dataframe = (frames.flatten.drop offset.toNat).take limit.toNat := by
  obtain ⟨writing, partitions, hready⟩ := h.ready
  have hstate : manifest.state = .ready ∧ manifest.partitions.length = manifest.npartitions ∧
      manifest.partitions.map (·.partNo) = range manifest.npartitions := by
    rw [DataFrameCacheManifest.ready] at hready
    split_ifs at hready with hlength hnumbers
    cases hready
    exact ⟨rfl, not_not.mp hlength, not_not.mp hnumbers⟩
  refine ⟨hstate.2.2, ?_⟩
  rw [getDataFrameEntry, h.activated]
  simp [h.version, h.stored, h.generation, hstate, hasMany_of_stores h.partitions,
    readPartitions_eq h.partitions, h.frameMeta, Except.map]

def listCodec : Codec (List UInt8) where
  encode := some
  decode := some
  rows := List.length
  schemaFingerprint := id
  decode_encode := by
    rintro frame payload ⟨⟩
    rfl

def pageKey : ℕ → Key := .partition "project" "load" "output" "a"

def pageManifest : DataFrameCacheManifest :=
  ⟨dataframeCacheFormatVersion, "project", "load", "output", "a", "v1", "", "", 3,
    [⟨0, pageKey 0, 2, 2⟩, ⟨1, pageKey 1, 0, 0⟩, ⟨2, pageKey 2, 2, 2⟩], [2, 0, 2], false, none, .ready⟩

def pageStore : Store :=
  ((((Dict.empty.set (pageKey 0) (.partition [1, 2])).set (pageKey 1) (.partition [])).set (pageKey 2)
    (.partition [3, 4])).set (.active "project" "load")
      (.active ⟨dataframeCacheFormatVersion, "a", none⟩)).set
        (.manifest "project" "load" "output" "a") (.manifest pageManifest)

theorem page_of_committed_sample : ∃ result,
    getDataFrameEntry listCodec (fun _ => []) pageStore "project" "load" "output" 1 2 = .ok result ∧
      result.dataframe = [2, 3] := by
  have hcommitted : Committed listCodec (fun _ => []) pageStore
      ⟨dataframeCacheFormatVersion, "a", none⟩ pageManifest [[1, 2], [], [3, 4]] := by
    refine ⟨rfl, rfl, rfl, ⟨rfl, rfl⟩, ⟨pageManifest, pageManifest.partitions, by decide⟩, rfl, ?_⟩
    exact .cons ⟨rfl, rfl⟩ (.cons ⟨rfl, rfl⟩ (.cons ⟨rfl, rfl⟩ .nil))
  exact (page_of_committed hcommitted 1 2).2

end Dvt.Caching
