import Dvt.Caching.Consistency
import Mathlib

/-! The active generation of a node under interleaved calls. -/

namespace Dvt.Caching

open Library List Dict
open Pipelines (DataFrameExecutionOrder)

variable {policy : DataFrameCachePolicy} {store : Store} {key : Key} {entry : Entry}
  {generationId : String}

section

variable (exec : Executions)

def activeGeneration (store : Store) (projectId nodeId : String) :
    Option ActiveDataFrameGeneration :=
  match store.get? (.active projectId nodeId) with
  | some (.active active) => some active
  | _ => none

def activeOrder (store : Store) (projectId nodeId : String) : WithBot (ℤ ×ₗ String) :=
  ((activeGeneration store projectId nodeId).bind ActiveDataFrameGeneration.executionOrder).map
    orderKey

def Reached (store : Store) (generationId : String) : Prop :=
  (orderKey (exec generationId).executionOrder : WithBot (ℤ ×ₗ String)) ≤
    activeOrder store (exec generationId).projectId (exec generationId).nodeId

variable {exec} {α : Type} {codec : Codec α} {s : State α}

lemma activeOrder_set_of_ne {projectId nodeId : String} (h : key ≠ .active projectId nodeId) :
    activeOrder (store.set key entry) projectId nodeId = activeOrder store projectId nodeId := by
  have hget : (store.set key entry).get? (.active projectId nodeId) =
      store.get? (.active projectId nodeId) := by
    rw [get?_set, if_neg h.symm]
  rw [activeOrder, activeOrder, activeGeneration, activeGeneration, hget]

lemma activeOrder_set_candidate (generationId : String) (order : DataFrameExecutionOrder) :
    activeOrder (store.set (activeKey exec generationId) (.active (candidate generationId order)))
      (exec generationId).projectId (exec generationId).nodeId = orderKey order := by
  simp only [activeOrder, activeGeneration, get?_set, activeKey]
  rfl

lemma reached_iff_supersedes (hstore : ValidStore exec store) :
    supersedes (store.get? (activeKey exec generationId)) (exec generationId).executionOrder = true ↔
      Reached exec store generationId := by
  cases hget : store.get? (activeKey exec generationId) with
  | none =>
    have hbot : activeOrder store (exec generationId).projectId (exec generationId).nodeId = ⊥ := by
      rw [activeKey] at hget
      simp only [activeOrder, activeGeneration, hget]
      rfl
    simp [supersedes, Reached, hbot]
  | some entry =>
    obtain ⟨current, _, rfl⟩ := active_of_valid (hstore _ _ hget)
    have horder : activeOrder store (exec generationId).projectId (exec generationId).nodeId =
        orderKey (exec current).executionOrder := by
      rw [activeKey] at hget
      simp only [activeOrder, activeGeneration, hget]
      rfl
    rw [Reached, horder, WithBot.coe_le_coe, le_iff_lt_or_eq, ← newer_iff, orderKey_injective.eq_iff]
    simp [supersedes, candidate, eq_comm (a := (exec generationId).executionOrder)]

lemma Reached.active (h : Reached exec store generationId) (hstore : ValidStore exec store) :
    ∃ current, activeGeneration store (exec generationId).projectId (exec generationId).nodeId =
        some (candidate current (exec current).executionOrder) ∧
      activeKey exec current = activeKey exec generationId ∧
      orderKey (exec generationId).executionOrder ≤ orderKey (exec current).executionOrder := by
  cases hget : store.get? (activeKey exec generationId) with
  | none =>
    rw [← reached_iff_supersedes hstore, hget] at h
    cases h
  | some entry =>
    obtain ⟨current, hkey, rfl⟩ := active_of_valid (hstore _ _ hget)
    have ha : activeGeneration store (exec generationId).projectId
        (exec generationId).nodeId = some (candidate current (exec current).executionOrder) := by
      rw [activeKey] at hget
      rw [activeGeneration, hget]
    refine ⟨current, ha, hkey, ?_⟩
    rw [Reached, activeOrder, ha] at h
    exact WithBot.coe_le_coe.mp h

lemma activeOrder_write_le {call : Call} (projectId nodeId : String)
    (hstore : ValidStore exec store)
    (hcall : PcValid exec call.generationId call.pc)
    (hw : call.write exec store = some (key, entry)) :
    activeOrder store projectId nodeId ≤ activeOrder (store.set key entry) projectId nodeId := by
  by_cases hkey : key = .active projectId nodeId
  · obtain ⟨generationId, caller, pc⟩ := call
    dsimp only at hcall
    cases pc with
    | compareAndSet order expected =>
      obtain ⟨rfl, hsuper⟩ := hcall
      simp only [Call.write] at hw
      split at hw
      · next hget =>
        cases hw
        obtain ⟨rfl, rfl⟩ := hkey
        rw [activeOrder_set_candidate]
        rw [← hget, Bool.eq_false_iff, ne_eq, reached_iff_supersedes hstore] at hsuper
        exact le_of_not_ge hsuper
      · cases hw
    | putSnapshot | putReady outputName ready | putAborted outputName aborted =>
      cases hw; cases hkey
    | _ => cases hw
  · rw [activeOrder_set_of_ne hkey]

lemma activeOrder_step_le (codec : Codec α) (policy : DataFrameCachePolicy) (h : Consistent exec s)
    (e : Event α) (projectId nodeId : String) :
    activeOrder s.store projectId nodeId ≤
      activeOrder (s.step codec policy exec e).store projectId nodeId := by
  obtain hstore | ⟨key, entry, hstore, -, hkey | ⟨call, hcall, hw⟩⟩ :=
    h.store_step codec policy e
  · rw [hstore]
  · rw [hstore, activeOrder_set_of_ne (hkey projectId nodeId)]
  · rw [hstore]
    exact activeOrder_write_le projectId nodeId h.store (h.calls call hcall) hw

end

section

variable (exec : Executions)

def isReady : Option Entry → Bool
  | some (.manifest manifest) => manifest.state = .ready
  | _ => false

def Complete (store : Store) (generationId : String) : Prop :=
  store.get? (snapshotKey exec generationId) ≠ none ∧
    ∀ outputName ∈ (exec generationId).dataframeOutputNames,
      isReady (store.get? (manifestKey exec ⟨generationId, outputName⟩)) = true

def Pc.Pursuing : Pc → Prop
  | .getSnapshot => True
  | .getManifest _ _ _ _ => True
  | .getActive _ => True
  | .compareAndSet _ _ => True
  | _ => False

def Pursued {α : Type} (s : State α) : Prop :=
  ∀ generationId, Complete exec s.store generationId → Reached exec s.store generationId ∨
    ∃ call ∈ s.calls, call.generationId = generationId ∧ call.pc.Pursuing

variable {exec} {α : Type} {codec : Codec α} {s : State α} {call : Call}

lemma pursuing_checkManifests (snapshot : DataFrameExecutionSnapshot)
    (order : DataFrameExecutionOrder) (names : List String) :
    (checkManifests snapshot order names).Pursuing := by
  cases names with
  | nil | cons name rest => trivial

lemma isReady_iff {entry : Option Entry} : isReady entry = true ↔
    ∃ manifest, entry = some (.manifest manifest) ∧ manifest.state = .ready := by
  constructor
  · intro h
    rw [isReady.eq_def] at h
    split at h
    · next manifest => exact ⟨manifest, rfl, of_decide_eq_true h⟩
    · cases h
  · rintro ⟨manifest, rfl, hs⟩
    exact decide_eq_true hs

lemma pursuing_next (hstore : ValidStore exec store)
    (hcall : PcValid exec call.generationId call.pc) (hp : call.pc.Pursuing)
    (hc : Complete exec store call.generationId) :
    (call.next exec store).Pursuing ∨
      Reached exec (put .ok store (call.write exec store)) call.generationId := by
  obtain ⟨hs, hm⟩ := hc
  obtain ⟨generationId, caller, pc⟩ := call
  dsimp only at *
  cases pc with
  | getSnapshot =>
    left
    obtain ⟨entry, hget⟩ := Option.ne_none_iff_exists'.mp hs
    cases snapshot_of_valid (hstore _ _ hget)
    simp only [Call.next, hget]
    exact pursuing_checkManifests _ _ _
  | getManifest snapshot order outputName rest =>
    left
    obtain ⟨rfl, rfl, hn⟩ := hcall
    obtain ⟨manifest, hget, hready⟩ :=
      isReady_iff.mp (hm outputName (hn mem_cons_self))
    have hh := header_of_valid (hstore _ _ hget)
    simp only [Call.next, hget]
    rw [if_pos ⟨hready, hh.version, hh.fingerprint⟩]
    exact pursuing_checkManifests _ _ _
  | getActive order =>
    subst hcall
    simp only [Call.next]
    split
    · next hsuper => exact .inr ((reached_iff_supersedes hstore).mp hsuper)
    · exact .inl trivial
  | compareAndSet order expected =>
    obtain ⟨rfl, _⟩ := hcall
    simp only [Call.next, Call.write]
    split
    · right
      change _ ≤ activeOrder (store.set _ _) _ _
      rw [activeOrder_set_candidate]
    · exact .inl trivial
  | _ => exact hp.elim

def Completes (exec : Executions) (generationId : String) (key : Key) (entry : Entry) : Prop :=
  key = snapshotKey exec generationId ∨
    ∃ outputName, key = manifestKey exec ⟨generationId, outputName⟩ ∧ isReady (some entry) = true

lemma complete_of_set (h : Complete exec (store.set key entry) generationId)
    (hc : ¬ Completes exec generationId key entry) : Complete exec store generationId := by
  obtain ⟨hs, hm⟩ := h
  obtain ⟨hkey, hman⟩ := not_or.mp hc
  constructor
  · rwa [get?_set, if_neg (Ne.symm hkey)] at hs
  · intro outputName hname
    have hready := hm outputName hname
    rw [get?_set] at hready
    split at hready
    · next heq => exact absurd ⟨outputName, heq.symm, hready⟩ hman
    · exact hready

lemma completes_write (hcall : PcValid exec call.generationId call.pc)
    (hw : call.write exec store = some (key, entry))
    (hc : Completes exec generationId key entry) :
    call.generationId = generationId ∧ (call.next exec store).Pursuing := by
  obtain ⟨callId, caller, pc⟩ := call
  cases pc with
  | putSnapshot =>
    cases hw
    obtain hkey | ⟨outputName, hkey, _⟩ := hc
    · rw [snapshotKey, snapshotKey, Key.snapshot.injEq] at hkey
      exact ⟨hkey.2.2, trivial⟩
    · cases hkey
  | putReady outputName ready =>
    cases hw
    obtain hkey | ⟨outputName, hkey, _⟩ := hc
    · cases hkey
    · exact ⟨congrArg OutputId.generationId (manifestKey_injective exec hkey), trivial⟩
  | compareAndSet order expected =>
    simp only [Call.write] at hw
    split at hw
    · cases hw
      obtain hkey | ⟨outputName, hkey, _⟩ := hc
      · cases hkey
      · cases hkey
    · cases hw
  | putAborted outputName aborted =>
    cases hw
    obtain hkey | ⟨outputName, _, hready⟩ := hc
    · cases hkey
    · rw [isReady, hcall.2] at hready
      cases hready
  | _ => cases hw

def Event.succeeds : Event α → Bool
  | .advance _ outcome => outcome = .ok
  | _ => true

lemma Reached.mono {store' : Store} (h : Reached exec store generationId)
    (hle : activeOrder store (exec generationId).projectId (exec generationId).nodeId ≤
      activeOrder store' (exec generationId).projectId (exec generationId).nodeId) :
    Reached exec store' generationId :=
  le_trans h hle

lemma Pursued.step {e : Event α} (h : Pursued exec s) (hs : Consistent exec s) (he : e.succeeds = true) :
    Pursued exec (s.step codec policy exec e) := by
  intro generationId hcom
  have hle := activeOrder_step_le codec policy hs e
    (exec generationId).projectId (exec generationId).nodeId
  -- a write that completes nothing leaves the calls and can only raise the active order
  have hk : ∀ key entry, (s.step codec policy exec e).store = s.store.set key entry →
      (s.step codec policy exec e).calls = s.calls → ¬ Completes exec generationId key entry →
      Reached exec (s.step codec policy exec e).store generationId ∨
        ∃ call ∈ (s.step codec policy exec e).calls,
          call.generationId = generationId ∧ call.pc.Pursuing := by
    intro key entry hstore hcalls hc
    rw [hstore] at hcom
    rw [hcalls]
    exact (h generationId (complete_of_set hcom hc)).imp_left fun hr => hr.mono hle
  cases (State.moves codec policy exec s e).1 with
  | quiet hstore hcalls =>
    rw [hstore] at hcom ⊢
    rw [hcalls]
    exact h generationId hcom
  | call hfresh hstore hcalls =>
    rw [hstore] at hcom ⊢
    rw [hcalls]
    refine (h generationId hcom).imp_right ?_
    rintro ⟨call, hcall, hpur⟩
    exact ⟨call, mem_append_left _ hcall, hpur⟩
  | begin id frames hstore hcalls | upload id partNo payload hstore hcalls =>
    refine hk _ _ hstore hcalls ?_
    rintro (hkey | ⟨_, _, hready⟩)
    · cases hkey
    · cases hready
  | @advance i call outcome hcall hstore hcalls =>
    obtain rfl : outcome = .ok := of_decide_eq_true he
    have hv := hs.calls call (mem_of_getElem? hcall)
    have hm : call.generationId = generationId → (call.next exec s.store).Pursuing →
        ∃ call' ∈ (s.step codec policy exec (.advance i .ok)).calls,
          call'.generationId = generationId ∧ call'.pc.Pursuing := by
      intro hid hp
      refine ⟨{ call with pc := call.next exec s.store }, ?_, hid, hp⟩
      rw [hcalls]
      exact mem_set (List.getElem?_eq_some_iff.mp hcall).1 _
    by_cases hown : call.generationId = generationId ∧ (call.next exec s.store).Pursuing
    · exact .inr (hm hown.1 hown.2)
    · have hb : Complete exec s.store generationId := by
        rw [hstore] at hcom
        cases hw : call.write exec s.store with
        | none => rwa [hw] at hcom
        | some write =>
          rw [hw] at hcom
          exact complete_of_set hcom fun hc => hown (completes_write hv hw hc)
      obtain hrea | ⟨call', hcall', hid, hp⟩ := h generationId hb
      · exact .inl (hrea.mono hle)
      · obtain hsti | heq := mem_set_of_mem i { call with pc := call.next exec s.store } hcall'
        · exact .inr ⟨call', hcalls ▸ hsti, hid, hp⟩
        · obtain rfl : call = call' := Option.some.inj (hcall.symm.trans heq)
          subst hid
          obtain hn | hrea := pursuing_next hs.store hv hp hb
          · exact absurd ⟨rfl, hn⟩ hown
          · exact .inl (hstore ▸ hrea)

lemma Pursued.initial : Pursued exec ({} : State α) :=
  fun _ h => absurd rfl h.1

def Call.ended (call : Call) : Bool :=
  match call.pc with
  | .returned _ => true
  | _ => false

theorem active_generation_monotone (codec : Codec α) (policy : DataFrameCachePolicy)
    (hdistinct : ∀ g h, activeKey exec g = activeKey exec h →
      (exec g).executionOrder = (exec h).executionOrder → g = h) (events : List (Event α)) :
    (∀ pre post, pre ++ post <+: events → ∀ projectId nodeId,
      activeOrder (run (State.step codec policy exec) {} pre).store projectId nodeId ≤
        activeOrder (run (State.step codec policy exec) {} (pre ++ post)).store projectId nodeId) ∧
    ((∀ e ∈ events, e.succeeds = true) →
      (∀ call ∈ (run (State.step codec policy exec) {} events).calls, call.ended = true) →
      ∀ generationId, Complete exec (run (State.step codec policy exec) {} events).store generationId →
        ∃ active, activeGeneration (run (State.step codec policy exec) {} events).store
            (exec generationId).projectId (exec generationId).nodeId = some active ∧
          (active.generationId = generationId ∨ ∃ order, active.executionOrder = some order ∧
            order.newer (exec generationId).executionOrder = true)) := by
  constructor
  · intro pre post _ projectId nodeId
    rw [run_append]
    exact (along_true _ post).monotone (P := Consistent exec)
      (fun s => activeOrder s.store projectId nodeId) (fun _ e _ hs => hs.step e)
      (fun _ e _ hs => activeOrder_step_le codec policy hs e projectId nodeId)
      (Consistent.initial.run pre)
  · intro hok hended generationId hcomplete
    have hs : Consistent exec (run (State.step codec policy exec) {} events) :=
      Consistent.initial.run events
    have hpursued : Consistent exec (run (State.step codec policy exec) {} events) ∧
        Pursued exec (run (State.step codec policy exec) {} events) :=
      ((along_true _ _).and_forall hok).invariant (P := fun s => Consistent exec s ∧ Pursued exec s)
        (fun _ e he h => ⟨h.1.step e, h.2.step h.1 he.2⟩) ⟨Consistent.initial, Pursued.initial⟩
    obtain hreached | ⟨call, hcall, _, hpursuing⟩ := hpursued.2 generationId hcomplete
    · obtain ⟨current, hactive, hnode, hle⟩ := hreached.active hs.store
      refine ⟨_, hactive, ?_⟩
      obtain hlt | heq := lt_or_eq_of_le hle
      · exact .inr ⟨_, rfl, newer_iff.mpr hlt⟩
      · exact .inl (hdistinct _ _ hnode (orderKey_injective heq.symm))
    · have hpc := hended call hcall
      rw [Call.ended] at hpc
      split at hpc
      · next hreturned =>
        rw [hreturned] at hpursuing
        exact hpursuing.elim
      · cases hpc

end

def byteCodec : Codec UInt8 where
  encode frame := some [frame]
  decode payload := payload.head?
  rows _ := 1
  schemaFingerprint frameMeta := frameMeta
  decode_encode := by
    rintro frame payload ⟨⟩
    rfl

def sampleExecutions : Executions := fun generationId =>
  { projectId := "project"
    nodeId := "load"
    nodeName := "LoadCSV"
    nodeRuntimeFingerprint := "v1"
    outputNames := ["output"]
    dataframeOutputNames := ["output"]
    nonDataframeOutputs := .empty
    metadata := Dict.empty.set "output" (some "columns")
    executionOrder := ⟨0, generationId⟩ }

def samplePartitions (generationId : String) (frames : List UInt8) : List (Event UInt8) :=
  let id := ⟨generationId, "output"⟩
  [.begin id ⟨frames.length, "columns", false, none⟩ .ok] ++
    (frames.zipIdx.flatMap fun frame =>
      [.submit id frame.2 frame.1 true, .upload id 0 .ok, .done id 0]) ++
    [.finish id, .stage generationId]

def sampleEvents : List (Event UInt8) :=
  samplePartitions "a" [1, 2] ++ samplePartitions "b" [3] ++
    (List.replicate 12 [0, 1, 2, 3]).flatten.map fun i => .advance i .ok

def sampleState : State UInt8 := run (State.step byteCodec {} sampleExecutions) {} sampleEvents

theorem active_generation_sampleState : Complete sampleExecutions sampleState.store "a" ∧
      ∃ active, activeGeneration sampleState.store "project" "load" = some active ∧
        (active.generationId = "a" ∨ ∃ order, active.executionOrder = some order ∧
          order.newer ⟨0, "a"⟩ = true) := by
  have hdistinct : ∀ g h, activeKey sampleExecutions g = activeKey sampleExecutions h →
      (sampleExecutions g).executionOrder = (sampleExecutions h).executionOrder → g = h := by
    intro g h _ horder
    exact congrArg DataFrameExecutionOrder.taskId horder
  have hcomplete : Complete sampleExecutions sampleState.store "a" := by
    rw [Complete]
    decide +kernel
  exact ⟨hcomplete, (active_generation_monotone byteCodec {} hdistinct sampleEvents).2
    (by decide +kernel) (by decide +kernel) "a" hcomplete⟩

end Dvt.Caching
