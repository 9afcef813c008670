import Dvt.Caching.Activation
import Dvt.Caching.Soundness

/-! A restored generation holds the partitions that its execution submitted. -/

namespace Dvt.Caching

open Library List

section

variable {α : Type} {codec : Codec α} {policy : DataFrameCachePolicy} {exec : Executions}
variable {s s' s'' : State α}

lemma Grows.refl (s : State α) : Grows s s := ⟨suffix_rfl, fun _ h => h⟩

lemma Grows.trans (h : Grows s s') (h' : Grows s' s'') : Grows s s'' :=
  ⟨h.log.trans h'.log, fun key hp => h'.present key (h.present key hp)⟩

lemma Grows.run (h : Consistent exec s) (events : List (Event α)) :
    Grows s (run (State.step codec policy exec) s events) := by
  induction events generalizing s with
  | nil => exact Grows.refl s
  | cons e events ih => exact (Grows.step codec policy h e).trans (ih (h.step e))

variable (codec policy exec) in
def stateAt (events : List (Event α)) (t : ℕ) : State α :=
  run (State.step codec policy exec) {} (events.take t)

variable (events : List (Event α))

include events

lemma grows_stateAt {t u : ℕ} (h : t ≤ u) :
    Grows (stateAt codec policy exec events t) (stateAt codec policy exec events u) := by
  obtain ⟨post, hp⟩ := take_prefix_take_left h (l := events)
  rw [stateAt, stateAt, ← hp, run_append]
  exact Grows.run (Consistent.initial.run _) post

lemma grows_run_stateAt (t : ℕ) :
    Grows (stateAt codec policy exec events t) (run (State.step codec policy exec) {} events) := by
  have hs := take_append_drop t events
  rw [← hs, run_append, hs]
  exact Grows.run (Consistent.initial.run _) _

lemma sound_stateAt (t : ℕ) : Sound codec exec (stateAt codec policy exec events t) :=
  Sound.initial.run _

end

variable {α : Type} {codec : Codec α}

lemma flatten_buildRestoreBatches (policy : DataFrameCachePolicy)
    (partitions current : List DataFramePartitionDescriptor) (currentBytes : ℕ) :
    (buildRestoreBatches policy partitions current currentBytes).flatten = current ++ partitions := by
  induction partitions generalizing current currentBytes with
  | nil =>
    rw [buildRestoreBatches]
    split
    · next hnil => simp [hnil]
    · simp
  | cons d partitions ih =>
    simp only [buildRestoreBatches]
    split
    · rw [flatten_cons, ih]
      rfl
    · rw [ih]
      simp

lemma mapM_forall₂ {β γ : Type} {f : β → Option γ} {Q : β → γ → Prop} {l : List β}
    (h : ∀ x ∈ l, ∃ y, f x = some y ∧ Q x y) : ∃ ys, l.mapM f = some ys ∧ List.Forall₂ Q l ys := by
  induction l with
  | nil => exact ⟨[], rfl, .nil⟩
  | cons x l ih =>
    obtain ⟨y, hy, hq⟩ := h x mem_cons_self
    obtain ⟨ys, hys, hqs⟩ := ih fun z hz => h z (mem_cons_of_mem x hz)
    refine ⟨y :: ys, ?_, .cons hq hqs⟩
    rw [mapM_cons, hy, hys]
    rfl

lemma loadBatches_forall₂ {loads : ℕ → Store} {Q : DataFramePartitionDescriptor → α → Prop}
    {batches : List (List DataFramePartitionDescriptor)} (i : ℕ)
    (h : ∀ d ∈ batches.flatten, ∀ j, ∃ frame,
      loadPartition codec (loads j) d.cacheKey = some frame ∧ Q d frame) :
    ∃ frames, loadBatches codec loads i batches = some frames ∧
      List.Forall₂ Q batches.flatten frames := by
  induction batches generalizing i with
  | nil => exact ⟨[], rfl, .nil⟩
  | cons batch rest ih =>
    obtain ⟨first, hf, hq⟩ := mapM_forall₂ (Q := Q)
      (f := fun d => loadPartition codec (loads i) d.cacheKey)
      fun d hd => h d (mem_append_left _ hd) i
    obtain ⟨more, hmore, hqs⟩ := ih (i + 1) fun d hd => h d (mem_append_right _ hd)
    refine ⟨first ++ more, ?_, rel_append hq hqs⟩
    rw [loadBatches, hf, hmore]
    rfl

lemma readManifests_spec {reads : ℕ → Store} {projectId nodeId generationId fingerprint : String}
    {i : ℕ} {names : List String} {acc manifests : Dict String DataFrameCacheManifest}
    (h : readManifests codec reads projectId nodeId generationId fingerprint i names acc =
      some manifests) :
    (∀ name, name ∈ manifests.keys ↔ name ∈ acc.keys ∨ name ∈ names) ∧
      ∀ name m, manifests.get? name = some m → acc.get? name = some m ∨
        ∃ j, (reads j).get? (.manifest projectId nodeId name generationId) = some (.manifest m) ∧
          manifestIsCompatible codec m projectId nodeId name generationId fingerprint = true := by
  induction names generalizing i acc with
  | nil =>
    cases h
    exact ⟨by simp, fun _ _ hget => .inl hget⟩
  | cons outputName rest ih =>
    rw [readManifests] at h
    split at h
    · next manifest hr =>
      split at h
      · next hc =>
        obtain ⟨hk, hget⟩ := ih h
        constructor
        · intro name
          rw [hk, mem_keys_set, mem_cons]
          tauto
        · intro name m hm
          obtain hacc | hr' := hget name m hm
          · rw [Dict.get?_set] at hacc
            split at hacc
            · next heq =>
              cases hacc
              subst heq
              exact .inr ⟨i, hr, hc⟩
            · exact .inl hacc
          · exact .inr hr'
      · cases h
    · cases h

variable {policy : DataFrameCachePolicy} {exec : Executions}

lemma getRestorePlan_spec {reads : ℕ → Store} {request : RestoreRequest}
    {plan : DataFrameRestorePlan} (h : getRestorePlan codec reads request = some plan) :
    ∃ active, (reads 0).get? (.active request.projectId request.nodeId) = some (.active active) ∧
      (reads 1).get? (.snapshot request.projectId request.nodeId active.generationId) =
        some (.snapshot plan.snapshot) ∧
      ∃ fingerprint, readManifests codec reads request.projectId request.nodeId
        active.generationId fingerprint 2 plan.snapshot.dataframeOutputNames .empty =
          some plan.manifests := by
  rw [getRestorePlan] at h
  split at h
  · next active ha =>
    split at h
    · cases h
    · split at h
      · next snapshot hs =>
        split at h
        · obtain ⟨manifests, hm, h⟩ := Option.bind_eq_some_iff.mp h
          dsimp only at h
          split at h
          · cases h
            exact ⟨active, ha, hs, _, hm⟩
          · cases h
        · cases h
      · cases h
  · cases h

structure Rebuilt (log : List (Record α)) (id : OutputId) (npartitions : ℕ) (frames : List α) :
    Prop where
  length : frames.length = npartitions
  submitted : ∀ i frame, frames[i]? = some frame → .submitted id i frame ∈ log

lemma rebuilt_of_certified {events : List (Event α)} {t : ℕ} {loads : ℕ → ℕ}
    (hloa : ∀ j, t ≤ loads j) {id : OutputId} {manifest : DataFrameCacheManifest}
    (h : Certified exec (stateAt codec policy exec events t) id manifest)
    (restorePolicy : DataFrameCachePolicy) :
    ∃ frames, buildLazyDataframe codec (fun j => (stateAt codec policy exec events (loads j)).store)
        manifest restorePolicy = some frames ∧
      Rebuilt (run (State.step codec policy exec) {} events).log id manifest.npartitions frames := by
  have hload : ∀ d ∈ (buildRestoreBatches restorePolicy manifest.partitions [] 0).flatten, ∀ j,
      ∃ frame, loadPartition codec (stateAt codec policy exec events (loads j)).store d.cacheKey =
          some frame ∧
        .submitted id d.partNo frame ∈ (run (State.step codec policy exec) {} events).log := by
    intro d hd j
    rw [flatten_buildRestoreBatches] at hd
    obtain ⟨hkey, hp⟩ := h.described d hd
    rw [hkey] at hp ⊢
    obtain ⟨payload, hget⟩ := (grows_stateAt events (hloa j)).present _ hp
    obtain ⟨frame, he, hlog⟩ := (sound_stateAt events (loads j)).partition _ _ _ hget
    refine ⟨frame, ?_, (grows_run_stateAt events (loads j)).mem hlog⟩
    rw [loadPartition, hget]
    exact codec.decode_encode frame payload he
  obtain ⟨frames, hf, hrel⟩ := loadBatches_forall₂ 0 hload
  rw [flatten_buildRestoreBatches, nil_append] at hrel
  have hl : manifest.partitions.length = manifest.npartitions := by
    have hmap := congrArg List.length h.numbers
    rwa [length_map, length_range] at hmap
  refine ⟨frames, hf, hrel.length_eq.symm.trans hl, ?_⟩
  intro i frame hi
  obtain ⟨hlt, hget⟩ := List.getElem?_eq_some_iff.mp hi
  have hpart : i < manifest.partitions.length := hrel.length_eq ▸ hlt
  have hno : manifest.partitions[i].partNo = i := by
    have hmap := congrArg (fun l => l[i]?) h.numbers
    simpa [hpart, hl ▸ hpart] using hmap
  have hsub := (forall₂_iff_get.mp hrel).2 i hpart hlt
  simp only [get_eq_getElem] at hsub
  rw [hno, hget] at hsub
  exact hsub

theorem restored_frames_submitted (events : List (Event α)) (reads loads : ℕ → ℕ)
    (hloads : ∀ i j, reads i ≤ loads j) (request : RestoreRequest)
    (restorePolicy : DataFrameCachePolicy) {plan : DataFrameRestorePlan}
    (hplan : getRestorePlan codec (fun i => (stateAt codec policy exec events (reads i)).store)
      request = some plan) :
    ∃ generationId, activeKey exec generationId = .active request.projectId request.nodeId ∧
      plan.snapshot = executionSnapshot exec generationId ∧
      (∀ name, name ∈ plan.manifests.keys ↔ name ∈ (exec generationId).dataframeOutputNames) ∧
      ∀ name manifest, plan.manifests.get? name = some manifest →
        manifest.generationId = generationId ∧
        CommittedClean (run (State.step codec policy exec) {} events).log ⟨generationId, name⟩
          (· < manifest.npartitions) ∧
        ∃ frames,
          buildLazyDataframe codec (fun j => (stateAt codec policy exec events (loads j)).store)
            manifest restorePolicy = some frames ∧
          Rebuilt (run (State.step codec policy exec) {} events).log ⟨generationId, name⟩
            manifest.npartitions frames := by
  obtain ⟨active, hactive, hsnapshot, fingerprint, hmanifests⟩ := getRestorePlan_spec hplan
  have hsound : ∀ t, Sound codec exec (stateAt codec policy exec events t) := sound_stateAt events
  obtain ⟨generationId, hkey, hcandidate⟩ :=
    active_of_valid ((hsound (reads 0)).consistent.store _ _ hactive)
  cases hcandidate
  obtain ⟨hproject, hnode⟩ := Key.active.inj hkey
  rw [← hproject, ← hnode] at hsnapshot hmanifests
  have hplanned : plan.snapshot = executionSnapshot exec generationId :=
    Entry.snapshot.inj (snapshot_of_valid ((hsound (reads 1)).consistent.store _ _ hsnapshot))
  obtain ⟨hkeys, hread⟩ := readManifests_spec hmanifests
  refine ⟨generationId, hkey, hplanned, ?_, ?_⟩
  · intro name
    rw [hkeys, hplanned]
    exact or_iff_right (not_mem_nil)
  · intro name manifest hget
    obtain hempty | ⟨i, hstored, hcompatible⟩ := hread name manifest hget
    · cases hempty
    · rw [manifestIsCompatible, decide_eq_true_eq] at hcompatible
      obtain ⟨_, hready, _, _, _, hgeneration, _⟩ := hcompatible
      have hcertified := (hsound (reads i)).manifest ⟨generationId, name⟩ manifest hstored hready
      exact ⟨hgeneration, hcertified.clean.mono (grows_run_stateAt events (reads i)).log,
        rebuilt_of_certified (hloads i) hcertified restorePolicy⟩

def sampleRequest : RestoreRequest where
  projectId := "project"
  nodeId := "load"
  nodeName := "LoadCSV"
  nodeRuntimeFingerprint := some "v1"
  expectedOutputNames := ["output"]

theorem restored_frames_sampleEvents : ∃ plan, getRestorePlan byteCodec
        (fun _ => (stateAt byteCodec {} sampleExecutions sampleEvents sampleEvents.length).store) sampleRequest =
          some plan ∧
      ∃ generationId, plan.snapshot = executionSnapshot sampleExecutions generationId ∧
        "output" ∈ plan.manifests.keys := by
  obtain ⟨plan, hplan⟩ := Option.isSome_iff_exists.mp (show (getRestorePlan byteCodec
    (fun _ => (stateAt byteCodec {} sampleExecutions sampleEvents sampleEvents.length).store)
      sampleRequest).isSome = true by decide +kernel)
  obtain ⟨generationId, _, hsnapshot, hkeys, _⟩ := restored_frames_submitted sampleEvents
    (fun _ => sampleEvents.length) (fun _ => sampleEvents.length) (fun _ _ => Nat.le_refl _) sampleRequest {} hplan
  exact ⟨plan, hplan, generationId, hsnapshot, (hkeys "output").mpr mem_cons_self⟩

end Dvt.Caching
