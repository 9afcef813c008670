import Dvt.Caching.Protocol

/-! What the events do to the store and the calls, and what holds in every history. -/

namespace Dvt.Caching

open Library List
open Pipelines (DataFrameExecutionOrder)

variable {α : Type}

inductive Fresh : Call → Prop
  | stage (generationId : String) : Fresh ⟨generationId, .staging, .putSnapshot⟩
  | commit (id : OutputId) (partitions : List DataFramePartitionDescriptor) :
      Fresh (id.call (.getWriting id.outputName partitions))
  | abort (id : OutputId) :
      Fresh (id.call (.getAborting id.outputName))

inductive Moves (codec : Codec α) (exec : Executions) (s s' : State α) : Event α → Prop
  | quiet {e : Event α} (hstore : s'.store = s.store) (hcalls : s'.calls = s.calls) : Moves codec exec s s' e
  | call {e : Event α} {call : Call} (hfresh : Fresh call) (hstore : s'.store = s.store)
      (hcalls : s'.calls = s.calls ++ [call]) : Moves codec exec s s' e
  | begin {e : Event α} (id : OutputId) (frames : Frames)
      (hstore : s'.store = s.store.set (manifestKey exec id)
        (.manifest (writingManifest codec exec id frames)))
      (hcalls : s'.calls = s.calls) : Moves codec exec s s' e
  | upload {e : Event α} (id : OutputId) (partNo : ℕ) (payload : Bytes)
      (hstore : s'.store = s.store.set (partitionKey exec id partNo) (.partition payload))
      (hcalls : s'.calls = s.calls) : Moves codec exec s s' e
  | advance {i : ℕ} {call : Call} {outcome : Outcome} (hcall : s.calls[i]? = some call)
      (hstore : s'.store = put outcome s.store (call.write exec s.store))
      (hcalls : s'.calls = s.calls.set i { call with
        pc := if outcome = .ok then call.next exec s.store else call.onError }) :
      Moves codec exec s s' (.advance i outcome)

lemma put_none (outcome : Outcome) (store : Store) : put outcome store none = store := by
  cases outcome with
  | ok => rfl
  | raised applied =>
    cases applied with
    | false | true => rfl

lemma put_some (outcome : Outcome) (store : Store) (key : Key) (entry : Entry) :
    put outcome store (some (key, entry)) = store ∨
      put outcome store (some (key, entry)) = store.set key entry := by
  cases outcome with
  | ok => exact .inr rfl
  | raised applied =>
    cases applied with
    | false => exact .inl rfl
    | true => exact .inr rfl

lemma State.moves (codec : Codec α) (policy : DataFrameCachePolicy) (exec : Executions)
    (s : State α) (e : Event α) :
    Moves codec exec s (s.step codec policy exec e) e ∧
      s.log <:+ (s.step codec policy exec e).log := by
  cases e with
  | begin id frames outcome =>
    rw [State.step]
    split
    · exact ⟨.quiet rfl rfl, suffix_rfl⟩
    · obtain h | h := put_some outcome s.store (manifestKey exec id)
        (.manifest (writingManifest codec exec id frames))
      · exact ⟨.quiet h rfl, suffix_rfl⟩
      · exact ⟨.begin id frames h rfl, suffix_rfl⟩
  | submit id partNo frame accepted =>
    rw [State.step]
    split
    · split
      · exact ⟨.quiet rfl rfl, suffix_rfl⟩
      · rw [State.submit]
        split
        · exact ⟨.quiet rfl rfl, suffix_cons _ _⟩
        · split
          · exact ⟨.quiet rfl rfl, suffix_rfl⟩
          · split
            · exact ⟨.quiet rfl rfl, suffix_cons _ _⟩
            · exact ⟨.quiet rfl rfl, suffix_cons _ _⟩
    · exact ⟨.quiet rfl rfl, suffix_rfl⟩
  | upload id i outcome =>
    rw [State.step]
    cases s.writers.get? id with
    | none => exact ⟨.quiet rfl rfl, suffix_rfl⟩
    | some writer =>
      rw [Option.elim_some, State.upload]
      split
      · next upload _ =>
        split
        · have hlog : s.log <:+ if outcome = .ok then s.log
              else .failed id upload.partNo :: s.log := by
            split
            · exact suffix_rfl
            · exact suffix_cons _ _
          obtain h | h := put_some outcome s.store (partitionKey exec id upload.partNo)
            (.partition upload.payload)
          · exact ⟨.quiet h rfl, hlog⟩
          · exact ⟨.upload id upload.partNo upload.payload h rfl, hlog⟩
        · exact ⟨.quiet rfl rfl, suffix_rfl⟩
      · exact ⟨.quiet rfl rfl, suffix_rfl⟩
  | done id i =>
    rw [State.step]
    cases s.writers.get? id with
    | none | some writer => exact ⟨.quiet rfl rfl, suffix_rfl⟩
  | finish id =>
    rw [State.step]
    split
    · split
      · exact ⟨.quiet rfl rfl, suffix_rfl⟩
      · rw [State.finish]
        split
        · exact ⟨.quiet rfl rfl, suffix_rfl⟩
        · split
          · exact ⟨.call (.abort _) rfl rfl, suffix_rfl⟩
          · exact ⟨.call (.commit _ _) rfl rfl, suffix_cons _ _⟩
    · exact ⟨.quiet rfl rfl, suffix_rfl⟩
  | abort id =>
    rw [State.step]
    split
    · split
      · exact ⟨.quiet rfl rfl, suffix_rfl⟩
      · exact ⟨.call (.abort _) rfl rfl, suffix_rfl⟩
    · exact ⟨.quiet rfl rfl, suffix_rfl⟩
  | stage generationId =>
    rw [State.step]
    split
    · exact ⟨.call (.stage _) rfl rfl, suffix_rfl⟩
    · exact ⟨.quiet rfl rfl, suffix_rfl⟩
  | advance i outcome =>
    rw [State.step]
    cases hcall : s.calls[i]? with
    | none => exact ⟨.quiet rfl rfl, suffix_rfl⟩
    | some call => exact ⟨.advance hcall rfl rfl, suffix_rfl⟩

section

variable (exec : Executions)

structure Header (id : OutputId) (manifest : DataFrameCacheManifest) : Prop where
  version : manifest.formatVersion = dataframeCacheFormatVersion
  project : manifest.projectId = (exec id.generationId).projectId
  node : manifest.nodeId = (exec id.generationId).nodeId
  output : manifest.outputName = id.outputName
  generation : manifest.generationId = id.generationId
  fingerprint : manifest.nodeRuntimeFingerprint = (exec id.generationId).nodeRuntimeFingerprint

inductive Valid : Key → Entry → Prop
  | active (generationId : String) : Valid (activeKey exec generationId)
      (.active (candidate generationId (exec generationId).executionOrder))
  | snapshot (generationId : String) : Valid (snapshotKey exec generationId)
      (.snapshot (executionSnapshot exec generationId))
  | manifest {id : OutputId} {manifest : DataFrameCacheManifest}
      (header : Header exec id manifest) :
      Valid (manifestKey exec id) (.manifest manifest)
  | partition (id : OutputId) (partNo : ℕ) (payload : Bytes) :
      Valid (partitionKey exec id partNo) (.partition payload)

abbrev ValidStore (store : Store) : Prop :=
  ∀ key entry, store.get? key = some entry → Valid exec key entry

def PcValid (generationId : String) : Pc → Prop
  | .putReady outputName ready => Header exec ⟨generationId, outputName⟩ ready
  | .putAborted outputName aborted =>
    Header exec ⟨generationId, outputName⟩ aborted ∧ aborted.state = .aborted
  | .getManifest snapshot order outputName rest =>
    snapshot = executionSnapshot exec generationId ∧ order = (exec generationId).executionOrder ∧
      outputName :: rest ⊆ (exec generationId).dataframeOutputNames
  | .getActive order => order = (exec generationId).executionOrder
  | .compareAndSet order expected =>
    order = (exec generationId).executionOrder ∧ supersedes expected order = false
  | _ => True

structure Consistent {α : Type} (s : State α) : Prop where
  store : ∀ key entry, s.store.get? key = some entry → Valid exec key entry
  calls : ∀ call ∈ s.calls, PcValid exec call.generationId call.pc

end

variable {codec : Codec α} {policy : DataFrameCachePolicy} {exec : Executions}
variable {s : State α} {store : Store} {call : Call}

lemma Fresh.pcValid (h : Fresh call) : PcValid exec call.generationId call.pc := by
  cases h with
  | stage generationId | commit id partitions
  | abort id => trivial

lemma pcValid_onError (call : Call) (generationId : String) :
    PcValid exec generationId call.onError := by
  rw [Call.onError]
  split
  all_goals trivial

variable {generationId : String} {id : OutputId} {manifest : DataFrameCacheManifest}

lemma Header.ready {ready : DataFrameCacheManifest} {partitions : List DataFramePartitionDescriptor}
    (h : Header exec id manifest) (hr : manifest.ready partitions = some ready) :
    Header exec id ready := by
  rw [DataFrameCacheManifest.ready] at hr
  split at hr
  · cases hr
  · split at hr
    · cases hr
    · cases hr
      exact { h with }

lemma Header.aborted (h : Header exec id manifest) : Header exec id manifest.aborted := { h with }

lemma manifestKey_injective (exec : Executions) : Function.Injective (manifestKey exec) := by
  rintro ⟨generationId, outputName⟩ ⟨generationId', outputName'⟩ h
  simp only [manifestKey, Key.manifest.injEq] at h
  rw [h.2.2.1, h.2.2.2]

lemma header_of_valid (h : Valid exec (manifestKey exec id) (.manifest manifest)) :
    Header exec id manifest := by
  generalize hkey : manifestKey exec id = key at h
  generalize hentry : Entry.manifest manifest = entry at h
  cases h with
  | active generationId | snapshot generationId => cases hentry
  | manifest header =>
    cases hentry
    rwa [manifestKey_injective exec hkey]
  | partition id partNo payload => cases hentry

variable {entry : Entry}

lemma snapshot_of_valid (h : Valid exec (snapshotKey exec generationId) entry) :
    entry = .snapshot (executionSnapshot exec generationId) := by
  generalize hkey : snapshotKey exec generationId = key at h
  cases h with
  | active generationId => cases hkey
  | snapshot generationId =>
    simp only [snapshotKey, Key.snapshot.injEq] at hkey
    obtain ⟨_, _, rfl⟩ := hkey
    rfl
  | manifest header | partition id partNo payload => cases hkey

lemma active_of_valid {projectId nodeId : String}
    (h : Valid exec (.active projectId nodeId) entry) :
    ∃ generationId, activeKey exec generationId = .active projectId nodeId ∧
      entry = .active (candidate generationId (exec generationId).executionOrder) := by
  generalize hkey : Key.active projectId nodeId = key at h
  cases h with
  | active generationId => exact ⟨generationId, rfl, rfl⟩
  | snapshot generationId | manifest header | partition id partNo payload =>
    cases hkey

lemma pcValid_checkManifests {names : List String}
    (h : names ⊆ (exec generationId).dataframeOutputNames) :
    PcValid exec generationId (checkManifests (executionSnapshot exec generationId)
      (exec generationId).executionOrder names) := by
  cases names with
  | nil => rfl
  | cons name rest => exact ⟨rfl, rfl, h⟩

inductive Advances (exec : Executions) (store : Store) (call : Call) : Pc → Prop
  | onError : Advances exec store call call.onError
  | onReturn : Advances exec store call call.onReturn
  | returned : Advances exec store call (.returned false)
  | activate : Advances exec store call .getSnapshot
  | ready {outputName : String} {partitions : List DataFramePartitionDescriptor}
      {manifest ready : DataFrameCacheManifest} (hpc : call.pc = .getWriting outputName partitions)
      (hget : store.get? (manifestKey exec ⟨call.generationId, outputName⟩) = some (.manifest manifest))
      (hready : manifest.ready partitions = some ready) :
      Advances exec store call (.putReady outputName ready)
  | snapshot {snapshot : DataFrameExecutionSnapshot} {order : DataFrameExecutionOrder}
      (hget : store.get? (snapshotKey exec call.generationId) = some (.snapshot snapshot))
      (horder : snapshot.executionOrder = some order) :
      Advances exec store call (checkManifests snapshot order snapshot.dataframeOutputNames)
  | manifest {snapshot : DataFrameExecutionSnapshot} {order : DataFrameExecutionOrder}
      {outputName : String} {rest : List String}
      (hpc : call.pc = .getManifest snapshot order outputName rest) :
      Advances exec store call (checkManifests snapshot order rest)
  | swap {order : DataFrameExecutionOrder} {expected : Option Entry}
      (hpc : call.pc = .getActive order) (hsuper : supersedes expected order = false) :
      Advances exec store call (.compareAndSet order expected)
  | retry {order : DataFrameExecutionOrder} {expected : Option Entry}
      (hpc : call.pc = .compareAndSet order expected) :
      Advances exec store call (.getActive order)
  | abort {outputName : String} {manifest : DataFrameCacheManifest}
      (hget : store.get? (manifestKey exec ⟨call.generationId, outputName⟩) = some (.manifest manifest)) :
      Advances exec store call (.putAborted outputName manifest.aborted)

lemma Call.advances (exec : Executions) (store : Store) (call : Call) :
    Advances exec store call (call.next exec store) := by
  rw [Call.next]
  dsimp only
  split
  · exact .activate
  · next outputName partitions hpc =>
    split
    · next manifest hget =>
      split
      · cases hready : manifest.ready partitions with
        | none => exact .onError
        | some ready => exact .ready hpc hget hready
      · exact .onError
    · exact .onError
  · exact .activate
  · split
    · next snapshot hget =>
      split
      · cases horder : snapshot.executionOrder with
        | none => exact .onReturn
        | some order => exact .snapshot hget horder
      · exact .onReturn
    · exact .onReturn
  · next hpc =>
    split
    · split
      · exact .manifest hpc
      · exact .onReturn
    · exact .onReturn
  · next hpc =>
    split
    · exact .onReturn
    · next hsuper => exact .swap hpc (Bool.eq_false_iff.mpr hsuper)
  · next hpc =>
    split
    · exact .onReturn
    · exact .retry hpc
  · split
    · next hget => exact .abort hget
    · exact .returned
  · exact .returned
  · exact .returned

lemma pcValid_next (hstore : ValidStore exec store)
    (hcall : PcValid exec call.generationId call.pc) :
    PcValid exec call.generationId (call.next exec store) := by
  have hnext := call.advances exec store
  generalize call.next exec store = pc at hnext ⊢
  cases hnext with
  | onError => exact pcValid_onError _ _
  | onReturn =>
    rw [Call.onReturn]
    split <;> trivial
  | returned | activate => trivial
  | ready hpc hget hready => exact (header_of_valid (hstore _ _ hget)).ready hready
  | snapshot hget horder =>
    cases snapshot_of_valid (hstore _ _ hget)
    cases horder
    exact pcValid_checkManifests (List.Subset.refl _)
  | manifest hpc =>
    rw [hpc] at hcall
    obtain ⟨rfl, rfl, hn⟩ := hcall
    exact pcValid_checkManifests (List.Subset.trans (subset_cons_self _ _) hn)
  | swap hpc hsuper =>
    rw [hpc] at hcall
    exact ⟨hcall, hsuper⟩
  | retry hpc =>
    rw [hpc] at hcall
    exact hcall.1
  | abort hget => exact ⟨(header_of_valid (hstore _ _ hget)).aborted, rfl⟩

variable {key : Key}

lemma valid_write (hcall : PcValid exec call.generationId call.pc)
    (hw : call.write exec store = some (key, entry)) : Valid exec key entry := by
  obtain ⟨generationId, caller, pc⟩ := call
  dsimp only at hcall ⊢
  cases pc with
  | putSnapshot =>
    cases hw
    exact .snapshot generationId
  | putReady outputName ready =>
    cases hw
    exact .manifest hcall
  | compareAndSet order expected =>
    obtain ⟨rfl, _⟩ := hcall
    simp only [Call.write] at hw
    split at hw
    · cases hw
      exact .active generationId
    · cases hw
  | putAborted outputName aborted =>
    cases hw
    exact .manifest hcall.1
  | _ => cases hw

lemma valid_set (hstore : ValidStore exec store) (h : Valid exec key entry) :
    ValidStore exec (store.set key entry) := by
  intro key' entry' hget
  rw [Dict.get?_set] at hget
  split at hget
  · next heq =>
    cases hget
    exact heq ▸ h
  · exact hstore key' entry' hget

lemma Consistent.store_step (codec : Codec α) (policy : DataFrameCachePolicy)
    (h : Consistent exec s) (e : Event α) :
    (s.step codec policy exec e).store = s.store ∨ ∃ key entry,
      (s.step codec policy exec e).store = s.store.set key entry ∧ Valid exec key entry ∧
        ((∀ projectId nodeId, key ≠ .active projectId nodeId) ∨
          ∃ call ∈ s.calls, call.write exec s.store = some (key, entry)) := by
  cases (State.moves codec policy exec s e).1 with
  | quiet hstore | call _ hstore => exact .inl hstore
  | begin id frames hstore =>
    exact .inr ⟨_, _, hstore, .manifest ⟨rfl, rfl, rfl, rfl, rfl, rfl⟩, .inl nofun⟩
  | upload id partNo payload hstore =>
    exact .inr ⟨_, _, hstore, .partition id partNo payload, .inl nofun⟩
  | @advance i call outcome hcall hstore =>
    have hmem := mem_of_getElem? hcall
    cases hw : call.write exec s.store with
    | none =>
      rw [hw, put_none] at hstore
      exact .inl hstore
    | some write =>
      rw [hw] at hstore
      obtain hs | hset := put_some outcome s.store write.1 write.2
      · exact .inl (hstore.trans hs)
      · exact .inr ⟨_, _, hstore.trans hset, valid_write (h.calls call hmem) hw,
          .inr ⟨call, hmem, hw⟩⟩

lemma Consistent.step (h : Consistent exec s) (e : Event α) :
    Consistent exec (s.step codec policy exec e) := by
  constructor
  · obtain hstore | ⟨key, entry, hstore, hv, -⟩ := h.store_step codec policy e
    · exact hstore ▸ h.store
    · exact hstore ▸ valid_set h.store hv
  · cases (State.moves codec policy exec s e).1 with
    | quiet _ hcalls | begin _ _ _ hcalls | upload _ _ _ _ hcalls => exact hcalls ▸ h.calls
    | call hfresh _ hcalls =>
      rw [hcalls]
      intro call hcall
      obtain hcall | hcall := mem_append.mp hcall
      · exact h.calls call hcall
      · obtain rfl := mem_singleton.mp hcall
        exact hfresh.pcValid
    | @advance i call outcome hcall _ hcalls =>
      rw [hcalls]
      intro call' hcall'
      obtain hcall' | rfl := mem_or_eq_of_mem_set hcall'
      · exact h.calls call' hcall'
      · split
        · exact pcValid_next h.store (h.calls call (mem_of_getElem? hcall))
        · exact pcValid_onError call _

lemma Consistent.initial : Consistent exec ({} : State α) :=
  ⟨fun _ _ h => (Option.some_ne_none _ h.symm).elim, fun _ h => (not_mem_nil h).elim⟩

lemma Consistent.run (h : Consistent exec s) (events : List (Event α)) :
    Consistent exec (run (State.step codec policy exec) s events) :=
  run_invariant events (fun _ e hs => Consistent.step hs e) h

end Dvt.Caching
