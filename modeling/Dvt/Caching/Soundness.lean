import Dvt.Caching.Consistency

/-! What every history of writers and calls leaves in the cache. -/

namespace Dvt.Caching

open Library List Dict DataFramePartitionDescriptor

section

variable {α : Type} (codec : Codec α) (exec : Executions) (s : State α)

def Record.writer : Record α → OutputId
  | .submitted id _ _ => id
  | .failed id _ => id
  | .committed id => id

def Present (store : Store) (key : Key) : Prop := ∃ payload, store.get? key = some (.partition payload)

def CommittedClean (log : List (Record α)) (id : OutputId) (parts : ℕ → Prop) : Prop :=
  ∃ newer older, log = newer ++ .committed id :: older ∧ (∀ i, .failed id i ∉ older) ∧
    ∀ i, (∃ frame, .submitted id i frame ∈ older) ↔ parts i

def Described (id : OutputId) (partitions : List DataFramePartitionDescriptor) : Prop :=
  ∀ d ∈ partitions, d.cacheKey = partitionKey exec id d.partNo ∧ Present s.store d.cacheKey

structure Certified (id : OutputId) (manifest : DataFrameCacheManifest) : Prop where
  numbers : manifest.partitions.map partNo = List.range manifest.npartitions
  described : Described exec s id manifest.partitions
  clean : CommittedClean s.log id (· < manifest.npartitions)

def PcCertified (generationId : String) : Pc → Prop
  | .getWriting outputName partitions =>
    Described exec s ⟨generationId, outputName⟩ partitions ∧
      CommittedClean s.log ⟨generationId, outputName⟩
        (· ∈ partitions.map partNo)
  | .putReady outputName ready => Certified exec s ⟨generationId, outputName⟩ ready
  | _ => True

structure WriterSound (id : OutputId) (writer : Writer) : Prop where
  uploads : ∀ u ∈ writer.pending, (∃ frame, codec.encode frame = some u.payload ∧
      .submitted id u.partNo frame ∈ s.log) ∧
    (u.state = .stored → Present s.store (partitionKey exec id u.partNo))
  descriptors : ∀ i d, writer.descriptors.get? i = some d → d.partNo = i ∧
    d.cacheKey = partitionKey exec id i ∧ Present s.store d.cacheKey ∧
    ∃ frame, .submitted id i frame ∈ s.log
  failed : ∀ i, .failed id i ∈ s.log → writer.firstError = true ∨
    ∃ u ∈ writer.pending, u.state = .failed
  submitted : ∀ i frame, .submitted id i frame ∈ s.log →
    i ∈ writer.descriptors.keys ∨ writer.firstError = true ∨ ∃ u ∈ writer.pending, u.partNo = i

structure Sound : Prop where
  consistent : Consistent exec s
  partition : ∀ id i payload, s.store.get? (partitionKey exec id i) = some (.partition payload) →
    ∃ frame, codec.encode frame = some payload ∧ .submitted id i frame ∈ s.log
  manifest : ∀ id m, s.store.get? (manifestKey exec id) = some (.manifest m) → m.state = .ready →
    Certified exec s id m
  calls : ∀ call ∈ s.calls, PcCertified exec s call.generationId call.pc
  writers : ∀ id writer, s.writers.get? id = some writer → WriterSound codec exec s id writer
  opened : ∀ r ∈ s.log, r.writer ∈ s.writers.keys

structure Grows (s s' : State α) : Prop where
  log : s.log <:+ s'.log
  present : ∀ key, Present s.store key → Present s'.store key

end

variable {partitions : List DataFramePartitionDescriptor}

section

variable {α : Type} {codec : Codec α} {exec : Executions} {s s' : State α}
variable {id : OutputId} {generationId : String}

lemma partition_of_valid {i : ℕ} {entry : Entry} (h : Valid exec (partitionKey exec id i) entry) :
    ∃ payload, entry = .partition payload := by
  generalize hkey : partitionKey exec id i = key at h
  cases h with
  | active generationId | snapshot generationId | manifest header => cases hkey
  | partition id partNo payload => exact ⟨payload, rfl⟩

lemma partitionKey_inj {id' : OutputId} {i j : ℕ} (h : partitionKey exec id i = partitionKey exec id' j) :
    id = id' ∧ i = j := by
  obtain ⟨generationId, outputName⟩ := id
  simp only [partitionKey, Key.partition.injEq] at h
  obtain ⟨_, _, rfl, rfl, rfl⟩ := h
  exact ⟨rfl, rfl⟩

lemma present_set {store : Store} {key key' : Key} {entry : Entry} (hstore : ValidStore exec store)
    (hv : Valid exec key entry) (h : Present store key') :
    Present (store.set key entry) key' := by
  rw [Present, get?_set]
  split
  · next heq =>
    subst heq
    obtain ⟨payload, hget⟩ := h
    generalize hentry : Entry.partition payload = old at hget
    cases hstore _ _ hget with
    | active generationId | snapshot generationId | manifest header => cases hentry
    | partition id partNo payload =>
      obtain ⟨payload, rfl⟩ := partition_of_valid hv
      exact ⟨payload, rfl⟩
  · exact h

lemma Grows.step (codec : Codec α) (policy : DataFrameCachePolicy) (h : Consistent exec s)
    (e : Event α) : Grows s (s.step codec policy exec e) := by
  refine ⟨(State.moves codec policy exec s e).2, fun key hp => ?_⟩
  obtain hstore | ⟨key', entry, hstore, hv, -⟩ := h.store_step codec policy e
  · rwa [hstore]
  · rw [hstore]
    exact present_set h.store hv hp

lemma Grows.mem (h : Grows s s') {r : Record α} (hr : r ∈ s.log) : r ∈ s'.log := h.log.subset hr

lemma CommittedClean.mono {log log' : List (Record α)} {parts : ℕ → Prop}
    (h : CommittedClean log id parts) (hlog : log <:+ log') :
    CommittedClean log' id parts := by
  obtain ⟨newer, older, rfl, hc⟩ := h
  obtain ⟨more, rfl⟩ := hlog
  exact ⟨more ++ newer, older, by simp, hc⟩

lemma Described.mono (h : Described exec s id partitions) (hg : Grows s s') :
    Described exec s' id partitions :=
  fun d hd => ⟨(h d hd).1, hg.present _ (h d hd).2⟩

lemma Certified.mono {manifest : DataFrameCacheManifest}
    (h : Certified exec s id manifest) (hg : Grows s s') :
    Certified exec s' id manifest :=
  ⟨h.numbers, h.described.mono hg, h.clean.mono hg.log⟩

lemma PcCertified.mono {pc : Pc} (h : PcCertified exec s generationId pc) (hg : Grows s s') :
    PcCertified exec s' generationId pc := by
  cases pc with
  | getWriting outputName partitions => exact ⟨h.1.mono hg, h.2.mono hg.log⟩
  | putReady outputName ready => exact Certified.mono h hg
  | _ => trivial

variable {writer : Writer}

section

variable (h : WriterSound codec exec s id writer)

include h

lemma WriterSound.uploads_mono (hg : Grows s s') {u : Upload} (hu : u ∈ writer.pending) :
    (∃ frame, codec.encode frame = some u.payload ∧ .submitted id u.partNo frame ∈ s'.log) ∧
    (u.state = .stored → Present s'.store (partitionKey exec id u.partNo)) := by
  obtain ⟨⟨frame, hf, hlog⟩, hsto⟩ := h.uploads u hu
  exact ⟨⟨frame, hf, hg.mem hlog⟩, fun hs => hg.present _ (hsto hs)⟩

lemma WriterSound.descriptors_mono (hg : Grows s s') {i : ℕ}
    {d : DataFramePartitionDescriptor} (hd : writer.descriptors.get? i = some d) :
    d.partNo = i ∧ d.cacheKey = partitionKey exec id i ∧
      Present s'.store d.cacheKey ∧ ∃ frame, .submitted id i frame ∈ s'.log := by
  obtain ⟨hno, hkey, hp, frame, hlog⟩ := h.descriptors i d hd
  exact ⟨hno, hkey, hg.present _ hp, frame, hg.mem hlog⟩

lemma WriterSound.mono (hg : Grows s s') (hs : ∀ r ∈ s'.log, r.writer = id →
      r ∈ s.log ∨ r = .committed id) :
    WriterSound codec exec s' id writer where
  uploads _ hu := h.uploads_mono hg hu
  descriptors _ _ hd := h.descriptors_mono hg hd
  failed i hi := h.failed i ((hs _ hi rfl).resolve_right nofun)
  submitted i frame hi := h.submitted i frame ((hs _ hi rfl).resolve_right nofun)

end

def PartitionsKept (codec : Codec α) (exec : Executions) (s s' : State α) : Prop :=
  ∀ id i payload, s'.store.get? (partitionKey exec id i) = some (.partition payload) →
    s.store.get? (partitionKey exec id i) = some (.partition payload) ∨
      ∃ frame, codec.encode frame = some payload ∧ .submitted id i frame ∈ s'.log

structure Later (exec : Executions) (s s' : State α) : Prop where
  consistent : Consistent exec s'
  grows : Grows s s'

lemma Sound.extend (h : Sound codec exec s) (hl : Later exec s s') (hp : PartitionsKept codec exec s s')
    (hm : ∀ id m, s'.store.get? (manifestKey exec id) = some (.manifest m) → m.state = .ready →
      s.store.get? (manifestKey exec id) = some (.manifest m) ∨ Certified exec s' id m)
    (hcalls : ∀ call ∈ s'.calls, call ∈ s.calls ∨ PcCertified exec s' call.generationId call.pc)
    (hw : ∀ id writer, s'.writers.get? id = some writer →
      (s.writers.get? id = some writer ∧
          ∀ r ∈ s'.log, r.writer = id → r ∈ s.log ∨ r = .committed id) ∨
        WriterSound codec exec s' id writer)
    (ho : ∀ r ∈ s'.log, r.writer ∈ s'.writers.keys) : Sound codec exec s' where
  consistent := hl.consistent
  partition id i payload hget := by
    obtain hold | hnew := hp id i payload hget
    · obtain ⟨frame, hf, hlog⟩ := h.partition _ _ _ hold
      exact ⟨frame, hf, hl.grows.mem hlog⟩
    · exact hnew
  manifest id m hget hs := by
    obtain hold | hnew := hm id m hget hs
    · exact (h.manifest id m hold hs).mono hl.grows
    · exact hnew
  calls call hcall := by
    obtain hold | hnew := hcalls call hcall
    · exact (h.calls call hold).mono hl.grows
    · exact hnew
  writers id writer hget := by
    obtain ⟨hold, hsame⟩ | hnew := hw id writer hget
    · exact (h.writers id writer hold).mono hl.grows hsame
    · exact hnew
  opened := ho

end

section

variable {α : Type} {codec : Codec α} {policy : DataFrameCachePolicy} {exec : Executions}
variable {s : State α} {store : Store} {generationId : String} {id : OutputId} {writer : Writer} {i : ℕ}

lemma get?_put (outcome : Outcome) (store : Store) (key key' : Key) (entry : Entry) :
    (put outcome store (some (key, entry))).get? key' = store.get? key' ∨
      key' = key ∧ (put outcome store (some (key, entry))).get? key' = some entry := by
  obtain h | h := put_some outcome store key entry
  · rw [h]
    exact .inl rfl
  · rw [h, get?_set]
    split
    · next heq => exact .inr ⟨heq, rfl⟩
    · exact .inl rfl

lemma mem_keys_set {κ ν : Type} [DecidableEq κ] {d : Dict κ ν} {k k' : κ} {v : ν} :
    k' ∈ (d.set k v).keys ↔ k' = k ∨ k' ∈ d.keys :=
  mem_assign_keys

variable {outcome : Outcome}

lemma Sound.begin {frames : Frames} (h : Sound codec exec s)
    (hl : Later exec s (s.step codec policy exec (.begin id frames outcome))) :
    Sound codec exec (s.step codec policy exec (.begin id frames outcome)) := by
  rw [State.step] at hl ⊢
  split at hl
  · next hskip =>
    rw [if_pos hskip]
    exact h
  · next hnew =>
    rw [if_neg hnew]
    obtain ⟨_, hc⟩ := not_or.mp hnew
    refine h.extend hl ?_ ?_ (fun call hcall => .inl hcall) ?_ ?_
    · intro id i payload hget
      obtain hold | ⟨hkey, _⟩ := get?_put outcome s.store _ _ _
      · exact .inl (hold.symm.trans hget)
      · cases hkey
    · intro id m hget hs
      obtain hold | ⟨_, hput⟩ := get?_put outcome s.store _ _ _
      · exact .inl (hold.symm.trans hget)
      · cases hput.symm.trans hget
        cases hs
    · intro id' writer hget
      by_cases hout : id' = id
      · subst hout
        have hn : ∀ r ∈ s.log, r.writer ≠ id' := fun r hr heq => hc (heq ▸ h.opened r hr)
        split at hget
        · rw [get?_set, if_pos rfl] at hget
          cases hget
          right
          exact ⟨by simp, by simp, fun i hi => absurd rfl (hn _ hi),
            fun i frame hi => absurd rfl (hn _ hi)⟩
        · exact absurd (mem_keys.mpr ⟨writer, hget⟩) hc
      · left
        refine ⟨?_, fun r hr _ => .inl hr⟩
        split at hget
        · rwa [get?_set, if_neg hout] at hget
        · exact hget
    · intro r hr
      split
      · exact mem_keys_set.mpr (.inr (h.opened r hr))
      · exact h.opened r hr

variable {s' : State α}

lemma Sound.setWriter (h : Sound codec exec s) (hl : Later exec s s')
    (hp : PartitionsKept codec exec s s')
    (hm : ∀ id, s'.store.get? (manifestKey exec id) = s.store.get? (manifestKey exec id))
    (hcalls : s'.calls = s.calls) (hw : s'.writers = s.writers.set id writer)
    (hlog : ∀ r ∈ s'.log, r ∈ s.log ∨ r.writer = id)
    (hwri : WriterSound codec exec s' id writer) : Sound codec exec s' := by
  refine h.extend hl hp (fun id m hget _ => .inl ((hm id).symm.trans hget))
    (fun call hcall => .inl (hcalls ▸ hcall)) ?_ ?_
  · intro id' w hget
    rw [hw, get?_set] at hget
    split at hget
    · next heq =>
      cases heq
      cases hget
      exact .inr hwri
    · next hne =>
      refine .inl ⟨hget, fun r hr hrw => .inl ((hlog r hr).resolve_right ?_)⟩
      exact fun heq => hne (hrw.symm.trans heq)
  · intro r hr
    rw [hw, mem_keys_set]
    exact (hlog r hr).elim (fun hold => .inr (h.opened r hold)) .inl

section

variable (h : WriterSound codec exec s id writer)

include h

lemma WriterSound.recordError (hg : Grows s s') :
    WriterSound codec exec s' id writer.recordError where
  uploads _ hu := h.uploads_mono hg hu
  descriptors _ _ hd := h.descriptors_mono hg hd
  failed _ _ := .inl rfl
  submitted _ _ _ := .inr (.inl rfl)

lemma WriterSound.enqueue {partNo : ℕ} {frame : α} {payload : Bytes} (hg : Grows s s')
    (he : codec.encode frame = some payload)
    (hlog : s'.log = .submitted id partNo frame :: s.log) :
    WriterSound codec exec s' id { writer with
      pending := writer.pending ++ [⟨partNo, codec.rows frame, payload, .queued⟩] } where
  uploads u hu := by
    obtain hu | hu := mem_append.mp hu
    · exact h.uploads_mono hg hu
    · obtain rfl := mem_singleton.mp hu
      exact ⟨⟨frame, he, hlog ▸ mem_cons_self⟩, nofun⟩
  descriptors _ _ hd := h.descriptors_mono hg hd
  failed i hi := by
    rw [hlog] at hi
    obtain hi | hi := mem_cons.mp hi
    · cases hi
    · refine (h.failed i hi).imp_right ?_
      rintro ⟨u, hu, hs⟩
      exact ⟨u, mem_append_left _ hu, hs⟩
  submitted i frame' hi := by
    rw [hlog] at hi
    obtain hi | hi := mem_cons.mp hi
    · cases hi
      exact .inr (.inr ⟨_, mem_append_right _ mem_cons_self, rfl⟩)
    · refine (h.submitted i frame' hi).imp_right (Or.imp_right ?_)
      rintro ⟨u, hu, hno⟩
      exact ⟨u, mem_append_left _ hu, hno⟩

end

lemma Sound.submit {partNo : ℕ} {frame : α} {accepted : Bool} (h : Sound codec exec s)
    (hw : s.writers.get? id = some writer) :
    Later exec s (s.submit codec policy id writer partNo frame accepted) →
      Sound codec exec (s.submit codec policy id writer partNo frame accepted) := by
  have hold := h.writers id writer hw
  have hset : ∀ {s' : State α} {r : Record α} {writer'}, r.writer = id →
      Later exec s s' → s'.store = s.store → s'.calls = s.calls →
      s'.writers = s.writers.set id writer' → s'.log = r :: s.log →
      WriterSound codec exec s' id writer' → Sound codec exec s' := by
    intro s' r writer' hr hl hstore hcalls hwri hlog hs
    refine h.setWriter hl (fun _ _ _ hget => .inl (hstore ▸ hget))
      (fun id => by rw [hstore]) hcalls hwri ?_ hs
    intro r' hr'
    rw [hlog] at hr'
    obtain rfl | hr' := mem_cons.mp hr'
    · exact .inr hr
    · exact .inl hr'
  rw [State.submit]
  split
  · intro hl
    exact hset rfl hl rfl rfl rfl rfl (hold.recordError hl.grows)
  · next payload he =>
    split
    · intro _
      exact h
    · split
      · intro hl
        exact hset rfl hl rfl rfl rfl rfl (hold.enqueue hl.grows he rfl)
      · intro hl
        exact hset rfl hl rfl rfl rfl rfl (hold.recordError hl.grows)

lemma WriterSound.setUpload {u : Upload} {state : UploadState}
    (h : WriterSound codec exec s id writer) (hg : Grows s s')
    (hu : writer.pending[i]? = some u) (hq : u.state = .queued)
    (hsto : state = .stored → Present s'.store (partitionKey exec id u.partNo))
    (hlog : ∀ r ∈ s'.log, r ∈ s.log ∨ r = .failed id u.partNo ∧ state = .failed) :
    WriterSound codec exec s' id
      { writer with pending := writer.pending.set i { u with state } } where
  uploads v hv := by
    obtain hv | rfl := mem_or_eq_of_mem_set hv
    · exact h.uploads_mono hg hv
    · exact ⟨(h.uploads_mono hg (mem_of_getElem? hu)).1, hsto⟩
  descriptors _ _ hd := h.descriptors_mono hg hd
  failed j hj := by
    obtain hj | ⟨_, hf⟩ := hlog _ hj
    · refine (h.failed j hj).imp_right ?_
      rintro ⟨v, hv, hs⟩
      obtain hv | heq := mem_set_of_mem i { u with state } hv
      · exact ⟨v, hv, hs⟩
      · cases hu.symm.trans heq
        cases hq.symm.trans hs
    · exact .inr ⟨_, mem_set (List.getElem?_eq_some_iff.mp hu).1 _, hf⟩
  submitted j frame hj := by
    obtain hj | ⟨hj, _⟩ := hlog _ hj
    · refine (h.submitted j frame hj).imp_right (Or.imp_right ?_)
      rintro ⟨v, hv, hno⟩
      obtain hv | heq := mem_set_of_mem i { u with state } hv
      · exact ⟨v, hv, hno⟩
      · cases hu.symm.trans heq
        exact ⟨_, mem_set (List.getElem?_eq_some_iff.mp hu).1 _, hno⟩
    · cases hj

lemma Sound.upload (h : Sound codec exec s) (hw : s.writers.get? id = some writer) :
    Later exec s (s.upload exec id writer i outcome) →
      Sound codec exec (s.upload exec id writer i outcome) := by
  have hold := h.writers id writer hw
  rw [State.upload]
  split
  · next u hu =>
    split
    · next hq =>
      intro hl
      obtain ⟨⟨frame, hf, hsub⟩, _⟩ := hold.uploads u (mem_of_getElem? hu)
      have hlog : ∀ r ∈ (if outcome = .ok then s.log else .failed id u.partNo :: s.log),
          r ∈ s.log ∨ r = .failed id u.partNo ∧
              (if outcome = .ok then UploadState.stored else .failed) = .failed := by
        intro r hr
        split at hr
        · exact .inl hr
        · next hrai =>
          obtain rfl | hr := mem_cons.mp hr
          · exact .inr ⟨rfl, if_neg hrai⟩
          · exact .inl hr
      refine h.setWriter hl ?_ ?_ rfl rfl ?_ (hold.setUpload hl.grows hu hq ?_ hlog)
      · intro id' j payload hget
        obtain hsame | ⟨hkey, hput⟩ := get?_put outcome s.store _ _ _
        · exact .inl (hsame.symm.trans hget)
        · cases hput.symm.trans hget
          obtain ⟨rfl, rfl⟩ := partitionKey_inj hkey
          exact .inr ⟨frame, hf, hl.grows.mem hsub⟩
      · intro id'
        obtain hsame | ⟨hkey, _⟩ := get?_put outcome s.store _ _ _
        · exact hsame
        · cases hkey
      · intro r hr
        refine (hlog r hr).imp_right ?_
        rintro ⟨rfl, _⟩
        rfl
      · intro hs
        split at hs
        · next hok =>
          subst hok
          exact ⟨u.payload, by simp [put, get?_set]⟩
        · cases hs
    · exact fun _ => h
  · exact fun _ => h

lemma mem_eraseIdx_of_ne {β : Type} {l : List β} {x y : β} (hx : x ∈ l)
    (hy : l[i]? = some y) (hne : x ≠ y) : x ∈ l.eraseIdx i := by
  obtain ⟨j, hj⟩ := mem_iff_getElem?.mp hx
  refine mem_eraseIdx_iff_getElem?.mpr ⟨j, ?_, hj⟩
  rintro rfl
  exact hne (Option.some.inj (hj.symm.trans hy))

section

variable (h : WriterSound codec exec s id writer)

include h

lemma WriterSound.done (i : ℕ) : WriterSound codec exec s id (writer.done exec id i) := by
  rw [Writer.done]
  split
  · next u hu =>
    have hmem : u ∈ writer.pending := mem_of_getElem? hu
    have hr : writer.pending.eraseIdx i ⊆ writer.pending := eraseIdx_subset
    split
    · exact h
    · next hs =>
      obtain ⟨⟨frame, hf, hsub⟩, hp⟩ := h.uploads u hmem
      refine ⟨fun v hv => h.uploads v (hr hv), ?_, ?_, ?_⟩
      · intro j d hd
        rw [get?_set] at hd
        split at hd
        · next heq =>
          subst heq
          cases hd
          exact ⟨rfl, rfl, hp hs, frame, hsub⟩
        · exact h.descriptors j d hd
      · intro j hj
        refine (h.failed j hj).imp_right ?_
        rintro ⟨v, hv, hsta⟩
        refine ⟨v, mem_eraseIdx_of_ne hv hu ?_, hsta⟩
        rintro rfl
        cases hs.symm.trans hsta
      · intro j frame' hj
        rw [mem_keys_set]
        obtain hkey | herror | ⟨v, hv, hno⟩ := h.submitted j frame' hj
        · exact .inl (.inr hkey)
        · exact .inr (.inl herror)
        · by_cases hvu : v = u
          · subst hvu
            exact .inl (.inl hno.symm)
          · exact .inr (.inr ⟨v, mem_eraseIdx_of_ne hv hu hvu, hno⟩)
    · exact ⟨fun v hv => h.uploads v (hr hv), h.descriptors, fun _ _ => .inl rfl,
        fun _ _ _ => .inr (.inl rfl)⟩
  · exact h

lemma WriterSound.commit (hp : writer.pending = []) (herror : writer.firstError = false) :
    Described exec s id writer.descriptors.values ∧
      CommittedClean (.committed id :: s.log) id
        (· ∈ writer.descriptors.values.map partNo) := by
  constructor
  · intro d hd
    obtain ⟨i, hget⟩ := mem_values.mp hd
    obtain ⟨rfl, hkey, hpre, _⟩ := h.descriptors i d hget
    exact ⟨hkey, hpre⟩
  · refine ⟨[], s.log, rfl, ?_, ?_⟩
    · intro i hi
      obtain hf | ⟨u, hu, _⟩ := h.failed i hi
      · exact Bool.false_ne_true (herror.symm.trans hf)
      · rw [hp] at hu
        exact not_mem_nil hu
    · intro i
      dsimp only
      rw [mem_map]
      constructor
      · rintro ⟨frame, hi⟩
        obtain hkey | hf | ⟨u, hu, _⟩ := h.submitted i frame hi
        · obtain ⟨d, hget⟩ := mem_keys.mp hkey
          exact ⟨d, mem_values.mpr ⟨i, hget⟩, (h.descriptors i d hget).1⟩
        · exact (Bool.false_ne_true (herror.symm.trans hf)).elim
        · rw [hp] at hu
          exact (not_mem_nil hu).elim
      · rintro ⟨d, hd, rfl⟩
        obtain ⟨i, hget⟩ := mem_values.mp hd
        obtain ⟨rfl, _, _, hsub⟩ := h.descriptors i d hget
        exact hsub

end

variable {call : Call}

lemma Sound.addCall (h : Sound codec exec s)
    (hl : Later exec s s') (hstore : s'.store = s.store) (hw : s'.writers = s.writers)
    (hcalls : s'.calls = s.calls ++ [call])
    (hlog : ∀ r ∈ s'.log, r ∈ s.log ∨ r.writer ∈ s.writers.keys ∧ r = .committed r.writer)
    (hpc : PcCertified exec s' call.generationId call.pc) : Sound codec exec s' := by
  refine h.extend hl (fun _ _ _ hget => .inl (hstore ▸ hget))
    (fun _ _ hget _ => .inl (hstore ▸ hget)) ?_ ?_ ?_
  · intro call' hcall'
    rw [hcalls] at hcall'
    obtain hold | hnew := mem_append.mp hcall'
    · exact .inl hold
    · obtain rfl := mem_singleton.mp hnew
      exact .inr hpc
  · intro id w hget
    refine .inl ⟨hw ▸ hget, fun r hr hrw => (hlog r hr).imp_right ?_⟩
    rintro ⟨_, hr⟩
    rw [hr, hrw]
  · intro r hr
    rw [hw]
    obtain hold | hnew := hlog r hr
    · exact h.opened r hold
    · exact hnew.1

lemma Sound.finish (h : Sound codec exec s) (hw : s.writers.get? id = some writer) :
    Later exec s (s.finish id writer) → Sound codec exec (s.finish id writer) := by
  have hold := h.writers id writer hw
  rw [State.finish]
  split
  · exact fun _ => h
  · next hp =>
    split
    · intro hl
      exact h.addCall hl rfl rfl rfl (fun r hr => .inl hr) trivial
    · next hcle =>
      intro hl
      obtain ⟨herror, _⟩ := not_or.mp hcle
      obtain ⟨hd, hc⟩ :=
        hold.commit (not_not.mp hp) (Bool.eq_false_iff.mpr herror)
      refine h.addCall hl rfl rfl rfl ?_ ⟨hd, hc⟩
      intro r hr
      obtain rfl | hr := mem_cons.mp hr
      · exact .inr ⟨mem_keys.mpr ⟨writer, hw⟩, rfl⟩
      · exact .inl hr

lemma Certified.ready {manifest ready : DataFrameCacheManifest}
    (h : manifest.ready partitions = some ready)
    (hpc : PcCertified exec s id.generationId (.getWriting id.outputName partitions)) :
    Certified exec s id ready := by
  obtain ⟨hdes, newer, older, hlog, hf, hp⟩ := hpc
  obtain ⟨hperm, hn⟩ : ready.partitions.Perm partitions ∧
      ready.partitions.map partNo = List.range ready.npartitions := by
    rw [DataFrameCacheManifest.ready] at h
    split_ifs at h with _ hn
    cases h
    exact ⟨perm_insertionSort _ _, not_not.mp hn⟩
  refine ⟨hn, fun d hd => hdes d (hperm.mem_iff.mp hd), newer, older, hlog, hf, ?_⟩
  intro i
  rw [hp i]
  dsimp only
  rw [← mem_range, ← hn]
  exact (hperm.map _).mem_iff.symm

lemma pcCertified_onError (call : Call) : PcCertified exec s generationId call.onError := by
  rw [Call.onError]
  split
  all_goals trivial

lemma pcCertified_next (h : PcCertified exec s call.generationId call.pc) :
    PcCertified exec s call.generationId (call.next exec store) := by
  have hn := call.advances exec store
  generalize call.next exec store = pc at hn ⊢
  cases hn with
  | onError => exact pcCertified_onError _
  | onReturn =>
    rw [Call.onReturn]
    split <;> trivial
  | snapshot hget horder | manifest hpc => rw [checkManifests.eq_def]; split <;> trivial
  | ready hpc hget hready =>
    rw [hpc] at h
    exact Certified.ready hready h
  | _ => trivial

lemma write_manifest {m : DataFrameCacheManifest} (hv : PcValid exec call.generationId call.pc)
    (h : PcCertified exec s call.generationId call.pc)
    (hw : call.write exec store = some (manifestKey exec id, .manifest m))
    (hs : m.state = .ready) : Certified exec s id m := by
  obtain ⟨callId, caller, pc⟩ := call
  cases pc with
  | putSnapshot => cases hw
  | putReady outputName ready =>
    rw [Call.write, Option.some.injEq, Prod.mk.injEq] at hw
    obtain ⟨hkey, hentry⟩ := hw
    cases hentry
    rwa [← manifestKey_injective exec hkey]
  | compareAndSet order expected =>
    simp only [Call.write] at hw
    split at hw
    · cases hw
    · cases hw
  | putAborted outputName aborted =>
    rw [Call.write, Option.some.injEq, Prod.mk.injEq] at hw
    cases hw.2
    cases hv.2.symm.trans hs
  | _ => cases hw

lemma write_partition {key : Key} {payload : Bytes} :
    call.write exec store ≠ some (key, .partition payload) := by
  obtain ⟨callId, caller, pc⟩ := call
  intro hw
  cases pc with
  | compareAndSet order expected =>
    simp only [Call.write] at hw
    split at hw
    · cases hw
    · cases hw
  | _ => cases hw

variable {writers : Dict OutputId Writer}

lemma get?_settle (h : (settle call writers).get? id = some writer) :
    writers.get? id = some writer ∨
      ∃ old, writers.get? id = some old ∧ writer = { old with committed := true } := by
  rw [settle] at h
  split at h
  · next outputName _ _ =>
    cases hold : writers.get? ⟨call.generationId, outputName⟩ with
    | none =>
      rw [hold] at h
      exact .inl h
    | some old =>
      rw [hold, Option.elim_some, get?_set] at h
      split at h
      · next heq =>
        cases h
        exact .inr ⟨old, heq ▸ hold, rfl⟩
      · exact .inl h
  · exact .inl h

lemma keys_settle (h : id ∈ writers.keys) : id ∈ (settle call writers).keys := by
  rw [settle]
  split
  · next outputName _ _ =>
    cases writers.get? ⟨call.generationId, outputName⟩ with
    | none => exact h
    | some old => exact mem_keys_set.mpr (.inr h)
  · exact h

lemma WriterSound.settled (h : WriterSound codec exec s id writer) :
    WriterSound codec exec s id { writer with committed := true } :=
  ⟨h.uploads, h.descriptors, h.failed, h.submitted⟩

lemma Sound.advance (h : Sound codec exec s)
    (hcall : s.calls[i]? = some call) (hl : Later exec s (s.advance exec i call outcome)) :
    Sound codec exec (s.advance exec i call outcome) := by
  have hmem := mem_of_getElem? hcall
  have hv := h.consistent.calls call hmem
  have hpc := h.calls call hmem
  -- a key of the new store holds what it held before or what the call writes
  have hget : ∀ key entry, (s.advance exec i call outcome).store.get? key = some entry →
      s.store.get? key = some entry ∨ call.write exec s.store = some (key, entry) := by
    intro key entry hnew
    change (put outcome s.store (call.write exec s.store)).get? key = some entry at hnew
    cases hw : call.write exec s.store with
    | none =>
      rw [hw, put_none] at hnew
      exact .inl hnew
    | some write =>
      rw [hw] at hnew
      obtain hsame | ⟨rfl, hput⟩ := get?_put outcome s.store write.1 key write.2
      · exact .inl (hsame.symm.trans hnew)
      · cases hput.symm.trans hnew
        exact .inr rfl
  refine h.extend hl ?_ ?_ ?_ ?_ ?_
  · intro id j payload hnew
    exact .inl ((hget _ _ hnew).resolve_right write_partition)
  · intro id m hnew hs
    refine (hget _ _ hnew).imp_right fun hw => ?_
    exact (write_manifest hv hpc hw hs).mono hl.grows
  · intro call' hcall'
    obtain hold | rfl := mem_or_eq_of_mem_set hcall'
    · exact .inl hold
    · right
      split
      · exact (pcCertified_next hpc).mono hl.grows
      · exact pcCertified_onError call
  · intro id w hnew
    obtain hold | ⟨old, hold, rfl⟩ := get?_settle hnew
    · exact .inl ⟨hold, fun r hr _ => .inl hr⟩
    · exact .inr ((h.writers id old hold).mono hl.grows fun r hr _ => .inl hr).settled
  · intro r hr
    exact keys_settle (h.opened r hr)

lemma Sound.step (h : Sound codec exec s) (e : Event α) :
    Sound codec exec (s.step codec policy exec e) := by
  have hl : Later exec s (s.step codec policy exec e) :=
    ⟨h.consistent.step e, .step codec policy h.consistent e⟩
  cases e with
  | begin id frames outcome => exact h.begin hl
  | submit id partNo frame accepted =>
    revert hl
    rw [State.step]
    split
    · next writer hw =>
      split
      · exact fun _ => h
      · exact h.submit hw
    · exact fun _ => h
  | upload id i outcome =>
    revert hl
    rw [State.step]
    cases hw : s.writers.get? id with
    | none => exact fun _ => h
    | some writer => exact h.upload hw
  | done id i =>
    revert hl
    rw [State.step]
    cases hw : s.writers.get? id with
    | none => exact fun _ => h
    | some writer =>
      intro hl
      exact h.setWriter hl (fun _ _ _ hget => .inl hget) (fun _ => rfl) rfl rfl
        (fun r hr => .inl hr) (((h.writers id writer hw).done i).mono hl.grows
          fun r hr _ => .inl hr)
  | finish id =>
    revert hl
    rw [State.step]
    split
    · next writer hw =>
      split
      · exact fun _ => h
      · exact h.finish hw
    · exact fun _ => h
  | abort id =>
    revert hl
    rw [State.step]
    split
    · split
      · exact fun _ => h
      · intro hl
        exact h.addCall hl rfl rfl rfl (fun r hr => .inl hr) trivial
    · exact fun _ => h
  | stage generationId =>
    revert hl
    rw [State.step]
    split
    · intro hl
      exact h.addCall hl rfl rfl rfl (fun r hr => .inl hr) trivial
    · exact fun _ => h
  | advance i outcome =>
    revert hl
    rw [State.step]
    cases hcall : s.calls[i]? with
    | none => exact fun _ => h
    | some call => exact h.advance hcall

lemma Sound.initial : Sound codec exec ({} : State α) where
  consistent := Consistent.initial
  partition _ _ _ hget := (Option.some_ne_none _ hget.symm).elim
  manifest _ _ hget := (Option.some_ne_none _ hget.symm).elim
  calls _ hcall := (not_mem_nil hcall).elim
  writers _ _ hget := (Option.some_ne_none _ hget.symm).elim
  opened _ hr := (not_mem_nil hr).elim

lemma Sound.run (h : Sound codec exec s) (events : List (Event α)) :
    Sound codec exec (run (State.step codec policy exec) s events) :=
  run_invariant events (fun _ e hs => Sound.step hs e) h

end

end Dvt.Caching
