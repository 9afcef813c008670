import Dvt.Settings.Provider

/-! Whether a read of the settings sees the writes that returned before it. -/

namespace Dvt.Settings

open Library List

variable {n : ℕ} {key : String} {μ : Type} {b : Builtins μ} (registry : Registry b)
  (env : AppSettings μ)

variable {s : State μ}

def Checked (key : String) (value : Setting μ) : Prop :=
  ∃ d ∈ registry.allDefinitions, d.key = key ∧ Storable d value

def CallSound (p : Shared μ) : Pc μ → Prop
  | .setCache settings readAt => readAt ≤ p.written.length ∧
      (readAt = p.written.length → registry.resolveSettings env p.rows = .ok settings)
  | .save key value | .invalidateCache key value | .commit key value => Checked registry key value
  | .returned key value writtenAt => p.written[writtenAt]? = some (key, value)
  | _ => True

def WrittenFrom (p : Shared μ) (n : ℕ) (key : String) (value : Setting μ) : Prop :=
  ∃ m, n ≤ m ∧ p.written[m]? = some (key, value)

structure SharedSound (p : Shared μ) : Prop where
  cache : ∀ settings, p.cache = some settings → registry.resolveSettings env p.rows = .ok settings
  written : ∀ n key value, p.written[n]? = some (key, value) →
    ∃ w, p.rows.get? key = some (dumps b w) ∧ WrittenFrom p n key w
  checked : ∀ e ∈ p.written, Checked registry e.1 e.2

structure Sound (s : State μ) : Prop where
  shared : SharedSound registry env s.shared
  calls : ∀ pc ∈ s.calls, CallSound registry env s.shared pc

def Grows (p p' : Shared μ) : Prop :=
  p'.rows = p.rows ∧ p'.written = p.written ∨ ∃ e, p'.written = p.written ++ [e]

variable {registry env} {p p' : Shared μ} {pc : Pc μ}

lemma Grows.isPrefix (h : Grows p p') : p.written <+: p'.written := by
  obtain ⟨_, hw⟩ | ⟨e, he⟩ := h
  · rw [hw]
  · rw [he]
    exact prefix_append _ _

lemma getElem?_of_isPrefix {xs ys : List (String × Setting μ)} (h : xs <+: ys) {e : String × Setting μ}
    (he : xs[n]? = some e) : ys[n]? = some e := by
  obtain ⟨zs, rfl⟩ := h
  rw [List.getElem?_append_left (List.getElem?_eq_some_iff.mp he).1, he]

lemma WrittenFrom.mono (h : Grows p p') {value : Setting μ}
    (hv : WrittenFrom p n key value) : WrittenFrom p' n key value := by
  obtain ⟨m, hm, hget⟩ := hv
  exact ⟨m, hm, getElem?_of_isPrefix h.isPrefix hget⟩

lemma CallSound.mono (h : Grows p p') (hpc : CallSound registry env p pc) :
    CallSound registry env p' pc := by
  cases pc with
  | setCache settings readAt =>
    obtain ⟨hle, hread⟩ := hpc
    obtain ⟨hr, hw⟩ | ⟨e, he⟩ := h
    · simp only [CallSound, hr, hw]
      exact ⟨hle, hread⟩
    · simp only [CallSound, he, length_append, length_singleton]
      exact ⟨by omega, by omega⟩
  | returned key value writtenAt => exact getElem?_of_isPrefix h.isPrefix hpc
  | _ => exact hpc

lemma checked_of_checkSetting {rows : Rows} {v : Value μ} {w : Setting μ}
    (h : checkSetting registry rows key v = .ok w) : Checked registry key w := by
  obtain ⟨d, hd, h⟩ := bind_eq_ok.mp h
  obtain ⟨hmem, rfl⟩ := getDefinition_eq_ok.mp hd
  split at h
  · obtain ⟨_, _, hv⟩ := bind_eq_ok.mp h
    rw [validateValue_of_mem hmem, validate_eq_ok] at hv
    exact ⟨d, hmem, rfl, coerceSettingValue_self hv, loads_dumps hv⟩
  · cases h

section

variable (registry env) in
lemma grows_advance (p : Shared μ) (pc : Pc μ) : Grows p (advance registry env p pc).1 := by
  cases pc with
  | getCached => cases h : p.cache <;> simp [advance, h, Grows]
  | readRows => cases h : registry.resolveSettings env p.rows <;> simp [advance, h, Grows]
  | check key value =>
    cases h : checkSetting registry p.rows key value <;> simp [advance, h, Grows]
  | commit key saved => exact .inr ⟨(key, saved), rfl⟩
  | _ => exact .inl ⟨rfl, rfl⟩

lemma callSound_advance (hpc : CallSound registry env p pc) :
    CallSound registry env (advance registry env p pc).1 (advance registry env p pc).2 := by
  cases pc with
  | getCached => cases h : p.cache <;> simp [advance, h, CallSound]
  | readRows =>
    cases h : registry.resolveSettings env p.rows with
    | ok settings | error error => simp [advance, h, CallSound]
  | check key value =>
    cases h : checkSetting registry p.rows key value with
    | ok validated =>
      simp only [advance, h]
      exact checked_of_checkSetting h
    | error error => simp [advance, h, CallSound]
  | commit key saved => simp [advance, CallSound]
  | setCache | gave | raised => trivial
  | _ => exact hpc

lemma SharedSound.commit (hp : SharedSound registry env p) (hc : p.cache = none)
    {saved : Setting μ} (hs : Checked registry key saved) :
    SharedSound registry env
      { p with rows := p.rows.set key (dumps b saved), written := p.written ++ [(key, saved)] } := by
  refine ⟨?_, ?_, ?_⟩
  · intro settings h
    cases hc.symm.trans h
  · intro n k v h
    have hl : (p.written ++ [(key, saved)])[p.written.length]? = some (key, saved) := by simp
    by_cases hk : k = key
    · subst hk
      refine ⟨saved, by simp only [Dict.get?_set, if_true], p.written.length, ?_, hl⟩
      have hn := (List.getElem?_eq_some_iff.mp h).1
      rw [length_append, length_singleton] at hn
      omega
    · have hold : p.written[n]? = some (k, v) := by
        rw [List.getElem?_append] at h
        split at h
        · exact h
        · have hv := mem_singleton.mp (mem_of_getElem? h)
          exact absurd (congrArg Prod.fst hv) hk
      obtain ⟨w, hw, hf⟩ := hp.written n k v hold
      exact ⟨w, by simp only [Dict.get?_set, hk, if_false, hw], hf.mono (.inr ⟨_, rfl⟩)⟩
  · intro e he
    obtain he | rfl := mem_append.mp he |>.imp_right mem_singleton.mp
    · exact hp.checked e he
    · exact hs

lemma sharedSound_advance (hp : SharedSound registry env p) (hpc : CallSound registry env p pc)
    (hok : pc.Undisturbed p) :
    SharedSound registry env (advance registry env p pc).1 := by
  cases pc with
  | getCached => cases h : p.cache <;> simpa only [advance, h] using hp
  | readRows => cases h : registry.resolveSettings env p.rows <;> simpa only [advance, h] using hp
  | check key value =>
    cases h : checkSetting registry p.rows key value <;> simpa only [advance, h] using hp
  | setCache settings readAt =>
    refine ⟨?_, hp.written, hp.checked⟩
    intro cached h
    obtain rfl := Option.some.inj h
    exact hpc.2 hok
  | invalidateCache key saved =>
    refine ⟨?_, hp.written, hp.checked⟩
    intro cached h
    cases h
  | commit key saved => exact hp.commit hok hpc
  | _ => exact hp

variable {i : ℕ}

lemma step_of_getElem? (h : s.calls[i]? = some pc) : step registry env s i =
      ⟨(advance registry env s.shared pc).1, s.calls.set i (advance registry env s.shared pc).2⟩ := by
  rw [step, h]

lemma step_of_getElem?_none (h : s.calls[i]? = none) : step registry env s i = s := by
  rw [step, h]

lemma sound_step (hs : Sound registry env s) (hi : Undisturbed s i) :
    Sound registry env (step registry env s i) := by
  cases hcall : s.calls[i]? with
  | none =>
    rw [step_of_getElem?_none hcall]
    exact hs
  | some pc =>
    rw [step_of_getElem? hcall]
    have hpc := hs.calls pc (mem_of_getElem? hcall)
    refine ⟨sharedSound_advance hs.shared hpc (hi pc hcall), ?_⟩
    intro q hq
    obtain hq | rfl := mem_or_eq_of_mem_set hq
    · exact (hs.calls q hq).mono (grows_advance registry env s.shared pc)
    · exact callSound_advance hpc

end

lemma Initial.sound (h : Initial s) : Sound registry env s := by
  refine ⟨⟨?_, ?_, ?_⟩, ?_⟩
  · intro settings hc
    cases h.cache.symm.trans hc
  · simp [h.written]
  · simp [h.written]
  · intro pc hpc
    obtain rfl | ⟨key, value, rfl⟩ := h.calls pc hpc <;> trivial

def Answers (p : Shared μ) (n : ℕ) (key : String) (settings : AppSettings μ) : Prop :=
  ∃ w, settings.get? key = some w ∧ WrittenFrom p n key w

def ReadSound (p : Shared μ) (n : ℕ) (key : String) : Pc μ → Prop
  | .getCached | .readRows | .raised _ => True
  | .setCache settings _ | .gave settings => Answers p n key settings
  | _ => False

section

variable {v : Setting μ}

lemma SharedSound.answers (hp : SharedSound registry env p) (hv : p.written[n]? = some (key, v))
    {settings : AppSettings μ} (h : registry.resolveSettings env p.rows = .ok settings) :
    Answers p n key settings := by
  obtain ⟨w, hrow, hf⟩ := hp.written n key v hv
  obtain ⟨m, hm, hget⟩ := hf
  obtain ⟨d, hd, rfl, hw⟩ := hp.checked _ (mem_of_getElem? hget)
  exact ⟨w, get?_resolveSettings h hd hrow hw, m, hm, hget⟩

lemma ReadSound.mono (h : Grows p p') (hpc : ReadSound p n key pc) : ReadSound p' n key pc := by
  have ha : ∀ settings, Answers p n key settings → Answers p' n key settings := by
    rintro settings ⟨w, hw, hf⟩
    exact ⟨w, hw, hf.mono h⟩
  cases pc with
  | setCache settings readAt | gave settings => exact ha settings hpc
  | _ => exact hpc

lemma readSound_advance (hp : SharedSound registry env p) (hv : p.written[n]? = some (key, v))
    (hpc : ReadSound p n key pc) :
    ReadSound (advance registry env p pc).1 n key (advance registry env p pc).2 := by
  cases pc with
  | getCached =>
    cases h : p.cache with
    | none => simp [advance, h, ReadSound]
    | some cached =>
      simp only [advance, h]
      exact hp.answers hv (hp.cache cached h)
  | readRows =>
    cases h : registry.resolveSettings env p.rows with
    | ok settings =>
      simp only [advance, h]
      exact hp.answers hv h
    | error error => simp [advance, h, ReadSound]
  | setCache settings readAt | gave settings => exact hpc
  | raised error => trivial
  | _ => exact hpc.elim

variable (registry env) in
structure Reading (n : ℕ) (key : String) (v : Setting μ) (j : ℕ) (s : State μ) : Prop where
  sound : Sound registry env s
  written : s.shared.written[n]? = some (key, v)
  read : ∃ pc, s.calls[j]? = some pc ∧ ReadSound s.shared n key pc

lemma reading_step {i j : ℕ} (hi : Undisturbed s i) (h : Reading registry env n key v j s) :
    Reading registry env n key v j (step registry env s i) := by
  have hs := sound_step h.sound hi
  cases hcall : s.calls[i]? with
  | none =>
    rw [step_of_getElem?_none hcall]
    exact h
  | some pc =>
    have hg := grows_advance registry env s.shared pc
    obtain ⟨q, hq, hr⟩ := h.read
    rw [step_of_getElem? hcall] at hs ⊢
    refine ⟨hs, getElem?_of_isPrefix hg.isPrefix h.written, ?_⟩
    by_cases hij : i = j
    · subst hij
      obtain rfl := Option.some.inj (hcall.symm.trans hq)
      refine ⟨_, ?_, readSound_advance h.sound.shared h.written hr⟩
      exact List.getElem?_set_self (List.getElem?_eq_some_iff.mp hq).1
    · refine ⟨q, ?_, hr.mono hg⟩
      rw [List.getElem?_set_ne hij, hq]

end

variable (registry env) in
/-- Every `get_app_settings` that begins after `pre`, when a `set_setting_value` has returned, gives
the value of that write or a later one. -/
def SeesCompletedWrites (s₀ : State μ) (pre post : List ℕ) : Prop :=
  ∀ (i j : ℕ) (key : String) (v : Setting μ) (n : ℕ) (settings : AppSettings μ),
    (run (step registry env) s₀ pre).calls[i]? = some (.returned key v n) →
    (run (step registry env) s₀ pre).calls[j]? = some .getCached →
    (run (step registry env) s₀ (pre ++ post)).calls[j]? = some (.gave settings) →
      (run (step registry env) s₀ (pre ++ post)).shared.written[n]? = some (key, v) ∧
        Answers (run (step registry env) s₀ (pre ++ post)).shared n key settings

theorem seesCompletedWrites_of_undisturbed {s₀ : State μ} (h₀ : Initial s₀) (pre post : List ℕ)
    (h : Along (step registry env) Undisturbed s₀ (pre ++ post)) :
    SeesCompletedWrites registry env s₀ pre post := by
  intro i j key v n settings hset hget hgave
  obtain ⟨hpre, hpost⟩ := along_append.mp h
  have hsound : Sound registry env (run (step registry env) s₀ pre) :=
    hpre.invariant (fun s i hi hs => sound_step hs hi) h₀.sound
  have hwritten := hsound.calls _ (mem_of_getElem? hset)
  have hreading : Reading registry env n key v j (run (step registry env) s₀ pre) :=
    ⟨hsound, hwritten, .getCached, hget, trivial⟩
  have hend := hpost.invariant (fun s i hi hs => reading_step hi hs) hreading
  rw [← run_append] at hend
  obtain ⟨pc, hpc, hread⟩ := hend.read
  obtain rfl := Option.some.inj (hpc.symm.trans hgave)
  exact ⟨hend.written, hread⟩

def sampleBuiltins : Builtins Empty := ⟨fun _ => ['_'], nofun, nofun⟩

def sampleRegistry : Registry sampleBuiltins where
  allDefinitions := [⟨"dcc.url", .str, true, .none, none, none, true⟩]
  nodup := by simp

def sampleUrl : Setting Empty := .str "http://dcc".toList

def sampleCalls : State Empty where
  shared := ⟨none, .empty, []⟩
  calls := [.check "dcc.url" (.setting sampleUrl), .getCached, .getCached]

lemma initial_sampleCalls : Initial sampleCalls := by
  refine ⟨rfl, rfl, ?_⟩
  simp [sampleCalls]

theorem seesCompletedWrites_sample :
    Along (step sampleRegistry .empty) Undisturbed sampleCalls ([0, 0, 0, 0] ++ [1, 1, 1]) ∧
      SeesCompletedWrites sampleRegistry .empty sampleCalls [0, 0, 0, 0] [1, 1, 1] :=
  have h : Along (step sampleRegistry .empty) Undisturbed sampleCalls
      ([0, 0, 0, 0] ++ [1, 1, 1]) := by
    decide
  ⟨h, seesCompletedWrites_of_undisturbed initial_sampleCalls _ _ h⟩

/-- The read of the second call falls between the invalidation and the commit of the first, and the
third call gets what the second left in the cache. -/
theorem not_seesCompletedWrites_filled :
    ¬ SeesCompletedWrites sampleRegistry .empty sampleCalls [0, 0, 0, 1, 1, 1, 0] [2] := by
  intro h
  obtain ⟨-, w, hw, m, -, hm⟩ :=
    h 0 2 "dcc.url" sampleUrl 0 (Dict.empty.set "dcc.url" .none) rfl rfl rfl
  have hurl := congrArg Prod.snd (mem_singleton.mp (mem_of_getElem? hm))
  obtain rfl : Setting.none = w := Option.some.inj hw
  cases hurl

def Held (settings : AppSettings μ) (s : State μ) : Prop :=
  s.shared.cache = some settings ∨ .gave settings ∈ s.calls ∨ ∃ n, .setCache settings n ∈ s.calls

lemma held_step {i : ℕ} {settings : AppSettings μ} (h : Held settings (step registry env s i)) :
    Held settings s ∨ registry.resolveSettings env s.shared.rows = .ok settings := by
  cases hi : s.calls[i]? with
  | none =>
    rw [step_of_getElem?_none hi] at h
    exact .inl h
  | some pc =>
    have hpc := mem_of_getElem? hi
    rw [step_of_getElem? hi] at h
    unfold Held at h ⊢
    cases pc <;> grind [advance, List.mem_or_eq_of_mem_set]

/-- Even a stale answer is no mix: it was resolved from the rows of one committed state. -/
theorem held_resolved (h₀ : Initial s) {xs : List ℕ} {settings : AppSettings μ}
    (h : Held settings (run (step registry env) s xs)) : ∃ pre, pre <+: xs ∧
      registry.resolveSettings env (run (step registry env) s pre).shared.rows = .ok settings := by
  have hnot : ¬ Held settings s := by grind [Held, h₀.cache, h₀.calls]
  obtain ⟨pre, i, post, rfl, hn, hs⟩ := exists_switch xs hnot h
  exact ⟨pre, prefix_append _ _, (held_step hs).resolve_left hn⟩

theorem held_resolved_sample : ∃ pre, pre <+: [1, 1, 0, 0, 0, 0, 1, 2] ∧
    sampleRegistry.resolveSettings .empty (run (step sampleRegistry .empty) sampleCalls pre).shared.rows =
      .ok (Dict.empty.set "dcc.url" .none) :=
  held_resolved initial_sampleCalls (.inl rfl)

end Dvt.Settings
