import Dvt.Pipelines.Order
import Mathlib.Data.Fintype.Order

/-! The topological order of a pipeline: when there is one, and what it lists. -/

namespace Dvt.Pipelines

open Library Relation List Dict

def Acyclic (p : Pipeline) : Prop := ∀ n, ¬ TransGen (Feeds p) n n

def Ordered (p : Pipeline) (l : List String) : Prop :=
  ∀ l₁ n l₂, l = l₁ ++ n :: l₂ → ∀ m, Feeds p m n → m ∈ l₁

def Enumerates (p : Pipeline) (dependents : String → List String) : Prop :=
  ∀ m, (dependents m).Perm (dependentsOf p m)

def inputsWithin (p : Pipeline) (n : String) : List String :=
  (upstreamOf p n).dedup.filter (· ∈ p.keys)

variable {p : Pipeline} {m n x : String} {done queue : List String} {degrees : Dict String ℕ}

lemma mem_inputsWithin : m ∈ inputsWithin p n ↔ Feeds p m n := by
  simp [inputsWithin, Feeds, and_comm]

lemma get?_inDegrees (hn : n ∈ p.keys) : (inDegrees p).get? n = some (inputsWithin p n).length := by
  have hmem : n ∈ p.keys.map id := by simpa using hn
  obtain ⟨k, _, hk, hget⟩ := get?_foldl_set_of_mem
    (g := fun id => (inputsWithin p id).length) .empty hmem
  obtain rfl : k = n := hk
  exact hget

lemma releaseDependents_spec (degrees : Dict String ℕ) {ids : List String} (hids : ids.Nodup) :
    (∀ n, (releaseDependents degrees ids).1.get? n =
        if n ∈ ids then some ((degrees.get? n).getD 0 - 1) else degrees.get? n) ∧
      (releaseDependents degrees ids).2 = ids.filter fun id => (degrees.get? id).getD 0 - 1 = 0 := by
  induction ids generalizing degrees with
  | nil => simp [releaseDependents]
  | cons id ids ih =>
    obtain ⟨hid, hids⟩ := nodup_cons.mp hids
    obtain ⟨hget, hready⟩ := ih (degrees.set id ((degrees.get? id).getD 0 - 1)) hids
    simp only [releaseDependents]
    constructor
    · intro n
      rw [hget n]
      by_cases hn : n = id
      · subst hn
        simp [hid, get?_set]
      · simp [hn, get?_set]
    · rw [hready]
      have hr : (ids.filter fun k =>
          ((degrees.set id ((degrees.get? id).getD 0 - 1)).get? k).getD 0 - 1 = 0) =
            ids.filter fun k => (degrees.get? k).getD 0 - 1 = 0 := by
        refine filter_congr fun k hk => ?_
        have hne : k ≠ id := fun h => hid (h ▸ hk)
        simp [get?_set, hne]
      rw [hr]
      by_cases hz : (degrees.get? id).getD 0 - 1 = 0
      · simp [hz]
      · simp [hz]

lemma Ordered.snoc (h : Ordered p done) (hx : ∀ m, Feeds p m x → m ∈ done) :
    Ordered p (done ++ [x]) := by
  intro l₁ n l₂ he m hm
  rcases eq_nil_or_concat l₂ with rfl | ⟨l₂, z, rfl⟩
  · obtain ⟨rfl, hn⟩ := append_inj' he rfl
    obtain rfl : x = n := by simpa using hn
    exact hx m hm
  · rw [concat_eq_append, ← cons_append, ← append_assoc] at he
    obtain ⟨he, _⟩ := append_inj' he rfl
    exact h l₁ n l₂ he m hm

structure Progress (p : Pipeline) (done queue : List String) (degrees : Dict String ℕ) : Prop where
  nodup : (done ++ queue).Nodup
  degree : ∀ n ∈ p.keys, degrees.get? n = some ((inputsWithin p n).filter (· ∉ done)).length
  ready : ∀ n, n ∈ done ++ queue ↔ n ∈ p.keys ∧ ∀ m, Feeds p m n → m ∈ done
  ordered : Ordered p done

lemma Progress.initial (p : Pipeline) :
    Progress p [] (p.keys.filter fun id => (inDegrees p).get? id = some 0) (inDegrees p) := by
  refine ⟨?_, ?_, ?_, ?_⟩
  · exact p.nodup_keys.filter _
  · intro n hn
    simp [get?_inDegrees hn]
  · intro n
    simp only [nil_append, mem_filter, decide_eq_true_eq, not_mem_nil]
    refine and_congr_right fun hn => ?_
    rw [get?_inDegrees hn, Option.some_inj, length_eq_zero_iff, eq_nil_iff_forall_not_mem]
    exact forall_congr' fun m => not_congr mem_inputsWithin
  · intro l₁ n l₂ he
    simp at he

variable {order : List String} {dependents : String → List String}

lemma Ordered.idxOf_lt (h : Ordered p order) (hn : n ∈ order) (hf : Feeds p m n) :
    order.idxOf m < order.idxOf n := by
  obtain ⟨l₁, l₂, rfl, hl⟩ := eq_append_cons_of_mem hn
  have hm := h l₁ n l₂ rfl m hf
  rw [idxOf_append_of_mem hm, idxOf_append_of_notMem hl]
  have hlt := idxOf_lt_length_of_mem hm
  omega

lemma Ordered.filter (h : Ordered p order) {q : String → Bool}
    (hc : ∀ m n, Feeds p m n → q n = true → q m = true) : Ordered p (order.filter q) := by
  intro l₁ n l₂ he m hm
  obtain ⟨l, rest, rfl, rfl, hr⟩ := filter_eq_append_iff.mp he
  obtain ⟨l', rest', rfl, hs, hn, rfl⟩ := filter_eq_cons_iff.mp hr
  have hmem := h (l ++ l') n rest' (append_assoc ..).symm m hm
  obtain hl | hl := mem_append.mp hmem
  · exact mem_filter.mpr ⟨hl, hc m n hm hn⟩
  · exact absurd (hc m n hm hn) (hs m hl)

lemma Acyclic.wellFounded (h : Acyclic p) :
    WellFounded fun a b : { n // n ∈ p.keys } => TransGen (Feeds p) a b := by
  have : Std.Irrefl fun a b : { n // n ∈ p.keys } => TransGen (Feeds p) a b :=
    ⟨fun a ha => h a ha⟩
  exact Finite.wellFounded_of_trans_of_irrefl _

lemma enumerates_dependentsOf (p : Pipeline) : Enumerates p (dependentsOf p) := fun _ => .refl _

lemma Enumerates.nodup (h : Enumerates p dependents) (m : String) : (dependents m).Nodup :=
  (h m).nodup_iff.mpr (p.nodup_keys.filter _)

lemma Enumerates.mem_iff (h : Enumerates p dependents) : n ∈ dependents m ↔ Feeds p m n :=
  (h m).mem_iff.trans mem_dependentsOf

variable (hd : Enumerates p dependents)

include hd

lemma degree_after (hx : x ∉ done) (n : String) :
    ((inputsWithin p n).filter (· ∉ done ++ [x])).length =
      if n ∈ dependents x then ((inputsWithin p n).filter (· ∉ done)).length - 1
      else ((inputsWithin p n).filter (· ∉ done)).length := by
  have hfil : (inputsWithin p n).filter (· ∉ done ++ [x]) =
      ((inputsWithin p n).filter (· ∉ done)).erase x := by
    have hn : (inputsWithin p n).Nodup := (nodup_dedup _).filter _
    rw [List.Nodup.erase_eq_filter (hn.filter _), filter_filter]
    refine filter_congr fun m _ => ?_
    by_cases hm : m = x
    · simp [hm]
    · simp [hm]
  rw [hfil]
  split
  · next hf =>
    refine length_erase_of_mem (mem_filter.mpr ⟨?_, by simpa using hx⟩)
    exact mem_inputsWithin.mpr (hd.mem_iff.mp hf)
  · next hf =>
    rw [erase_of_not_mem]
    exact fun hm => hf (hd.mem_iff.mpr (mem_inputsWithin.mp (mem_filter.mp hm).1))

lemma Progress.step (h : Progress p done (x :: queue) degrees) : Progress p (done ++ [x])
      (queue ++ (releaseDependents degrees (dependents x)).2)
      (releaseDependents degrees (dependents x)).1 := by
  have hnod := hd.nodup x
  obtain ⟨hget, hready⟩ := releaseDependents_spec degrees hnod
  have hx : x ∉ done := by
    have hd := disjoint_of_nodup_append h.nodup
    exact fun hmem => hd hmem mem_cons_self
  have hdeg : ∀ n ∈ p.keys, (releaseDependents degrees (dependents x)).1.get? n =
      some ((inputsWithin p n).filter (· ∉ done ++ [x])).length := by
    intro n hn
    rw [hget, degree_after hd hx, h.degree n hn]
    split <;> rfl
  have hmem : ∀ n, n ∈ (releaseDependents degrees (dependents x)).2 ↔
      Feeds p x n ∧ ∀ m, Feeds p m n → m ∈ done ++ [x] := by
    intro n
    rw [hready, mem_filter, hd.mem_iff]
    refine and_congr_right fun hf => ?_
    have hlen := degree_after hd hx n
    rw [if_pos (hd.mem_iff.mpr hf)] at hlen
    rw [h.degree n hf.mem_keys, Option.getD_some, ← hlen, decide_eq_true_eq,
      length_eq_zero_iff, filter_eq_nil_iff]
    simp only [mem_inputsWithin, decide_eq_true_eq, not_not]
  have hold : ∀ n, n ∈ done ++ x :: queue → ¬ Feeds p x n :=
    fun n hn hf => hx (((h.ready n).mp hn).2 x hf)
  refine ⟨?_, hdeg, ?_, ?_⟩
  · rw [← append_assoc, append_assoc done]
    refine List.Nodup.append h.nodup ?_ ?_
    · rw [hready]
      exact hnod.filter _
    · intro n hn hr
      exact hold n hn ((hmem n).mp hr).1
  · intro n
    rw [← append_assoc, append_assoc done, singleton_append, mem_append, hmem, h.ready]
    constructor
    · rintro (⟨hk, hd⟩ | ⟨hf, hd⟩)
      · exact ⟨hk, fun m hm => mem_append_left _ (hd m hm)⟩
      · exact ⟨hf.mem_keys, hd⟩
    · rintro ⟨hk, hd⟩
      by_cases hf : Feeds p x n
      · exact .inr ⟨hf, hd⟩
      · refine .inl ⟨hk, fun m hm => ?_⟩
        rcases mem_append.mp (hd m hm) with hm' | hm'
        · exact hm'
        · obtain rfl := mem_singleton.mp hm'
          exact absurd hm hf
  · exact h.ordered.snoc ((h.ready x).mp (by simp)).2

lemma kahn_progress (fuel : ℕ) (h : Progress p done queue degrees) :
    ∃ queue' degrees', Progress p (done ++ kahn dependents fuel queue degrees) queue' degrees' ∧
      (queue' = [] ∨ (kahn dependents fuel queue degrees).length = fuel) := by
  induction fuel generalizing done queue degrees with
  | zero =>
    rw [kahn, append_nil]
    exact ⟨queue, degrees, h, .inr rfl⟩
  | succ fuel ih =>
    cases queue with
    | nil =>
      rw [kahn, append_nil]
      exact ⟨[], degrees, h, .inl rfl⟩
    | cons x queue =>
      obtain ⟨queue', degrees', hp, hend⟩ := ih (h.step hd)
      rw [kahn]
      refine ⟨queue', degrees', ?_, ?_⟩
      · rw [append_assoc] at hp
        exact hp
      · refine hend.imp_right fun he => ?_
        rw [length_cons, he]

lemma fullOrder_progress : ∃ queue degrees, Progress p (fullOrderBy dependents p) queue degrees ∧
    (queue = [] ∨ (fullOrderBy dependents p).length = p.keys.length) := by
  obtain ⟨queue, degrees, hp, hend⟩ := kahn_progress hd p.keys.length (Progress.initial p)
  exact ⟨queue, degrees, hp, hend⟩

lemma nodup_fullOrderBy : (fullOrderBy dependents p).Nodup := by
  obtain ⟨queue, degrees, hp, _⟩ := fullOrder_progress hd
  exact (nodup_append.mp hp.nodup).1

lemma fullOrderBy_subset : fullOrderBy dependents p ⊆ p.keys := by
  obtain ⟨queue, degrees, hp, _⟩ := fullOrder_progress hd
  exact fun n hn => ((hp.ready n).mp (mem_append_left _ hn)).1

lemma ordered_fullOrderBy : Ordered p (fullOrderBy dependents p) := by
  obtain ⟨queue, degrees, hp, _⟩ := fullOrder_progress hd
  exact hp.ordered

section

variable (h : (fullOrderBy dependents p).length = p.keys.length)

include h

lemma mem_fullOrderBy : n ∈ fullOrderBy dependents p ↔ n ∈ p.keys := by
  have hp : (fullOrderBy dependents p).Perm p.keys :=
    (subperm_of_subset (nodup_fullOrderBy hd) (fullOrderBy_subset hd)).perm_of_length_le h.ge
  exact hp.mem_iff

lemma acyclic_of_length : Acyclic p := by
  have hlt : ∀ a b, TransGen (Feeds p) a b →
      (fullOrderBy dependents p).idxOf a < (fullOrderBy dependents p).idxOf b := by
    intro a b hab
    induction hab with
    | single hf =>
      exact (ordered_fullOrderBy hd).idxOf_lt ((mem_fullOrderBy hd h).mpr hf.mem_keys) hf
    | tail _ hf ih =>
      exact ih.trans ((ordered_fullOrderBy hd).idxOf_lt ((mem_fullOrderBy hd h).mpr hf.mem_keys) hf)
  exact fun n hn => (hlt n n hn).false

end

lemma length_of_acyclic (h : Acyclic p) : (fullOrderBy dependents p).length = p.keys.length := by
  obtain ⟨queue, degrees, hp, hend⟩ := fullOrder_progress hd
  refine hend.elim (fun hq => ?_) fun hlen => hlen
  subst hq
  have hall : ∀ n : { n // n ∈ p.keys }, (n : String) ∈ fullOrderBy dependents p := by
    intro n
    induction n using h.wellFounded.induction with
    | _ n ih =>
      have hin : ∀ m, Feeds p m n → m ∈ fullOrderBy dependents p := fun m hm => ih ⟨m, hm.1⟩ (.single hm)
      simpa using (hp.ready n).mpr ⟨n.2, hin⟩
  have hperm : p.keys.Perm (fullOrderBy dependents p) :=
    (subperm_of_subset p.nodup_keys fun n hn => hall ⟨n, hn⟩).perm_of_length_le
      ((subperm_of_subset (nodup_fullOrderBy hd) (fullOrderBy_subset hd)).length_le)
  exact hperm.length_eq.symm

variable {targetNodes : Option (List String)}

lemma topologicalSortBy_ok_iff : (∃ order, topologicalSortBy dependents p targetNodes = .ok order) ↔
    Acyclic p ∧ ∀ t ∈ targetNodes.getD [], t ∈ p.keys := by
  rw [topologicalSortBy]
  split
  · next missing hf =>
    have hmem := mem_of_find?_eq_some hf
    have hm : missing ∉ p.keys := by simpa using List.find?_some hf
    exact ⟨fun ⟨_, h⟩ => (by cases h), fun h => absurd (h.2 missing hmem) hm⟩
  · next hf =>
    have htar : ∀ t ∈ targetNodes.getD [], t ∈ p.keys := fun t ht => by
      simpa using List.find?_eq_none.mp hf t ht
    dsimp only
    split
    · next hlen =>
      refine ⟨fun ⟨_, h⟩ => (by cases h), fun h => absurd (length_of_acyclic hd h.1) hlen⟩
    · next hlen =>
      refine ⟨fun _ => ⟨acyclic_of_length hd (not_not.mp hlen), htar⟩, fun _ => ?_⟩
      split <;> exact ⟨_, rfl⟩

lemma topologicalSortBy_spec (h : topologicalSortBy dependents p targetNodes = .ok order) :
    order.Nodup ∧ Ordered p order ∧ ∀ n, n ∈ order ↔ n ∈ p.keys ∧
      (targetNodes.getD [] = [] ∨ ∃ t ∈ targetNodes.getD [], Upstream p n t) := by
  obtain ⟨ha, htar⟩ := (topologicalSortBy_ok_iff hd).mp ⟨order, h⟩
  have hlen := length_of_acyclic hd ha
  rw [topologicalSortBy] at h
  split at h
  · cases h
  · rw [if_neg (not_not.mpr hlen)] at h
    split at h
    · next hnil =>
      obtain rfl := Except.ok.inj h
      refine ⟨nodup_fullOrderBy hd, ordered_fullOrderBy hd, fun n => ?_⟩
      simp [mem_fullOrderBy hd hlen, hnil]
    · next hne =>
      obtain rfl := Except.ok.inj h
      refine ⟨(nodup_fullOrderBy hd).filter _, (ordered_fullOrderBy hd).filter fun m n hm hn => ?_,
        fun n => ?_⟩
      · simp only [decide_eq_true_eq, mem_findAllDependencies] at hn ⊢
        obtain ⟨t, ht, hkey, hup⟩ := hn
        exact ⟨t, ht, hkey, hup.head hm⟩
      · simp only [mem_filter, decide_eq_true_eq, mem_fullOrderBy hd hlen, mem_findAllDependencies,
          hne, false_or]
        refine and_congr_right fun _ => exists_congr fun t => and_congr_right fun ht => ?_
        exact and_iff_right (htar t ht)

omit hd in
lemma nodeNotFound_iff : (∃ t, topologicalSortBy dependents p targetNodes = .error (.nodeNotFound t)) ↔
    ∃ t ∈ targetNodes.getD [], t ∉ p.keys := by
  rw [topologicalSortBy]
  split
  · next missing hf =>
    have hm : missing ∉ p.keys := by simpa using List.find?_some hf
    exact ⟨fun _ => ⟨missing, mem_of_find?_eq_some hf, hm⟩, fun _ => ⟨missing, rfl⟩⟩
  · next hf =>
    have ht : ¬ ∃ t ∈ targetNodes.getD [], t ∉ p.keys := by simpa using hf
    refine ⟨fun ⟨_, h⟩ => ?_, fun h => absurd h ht⟩
    dsimp only at h
    split at h
    · cases h
    · split at h <;> cases h

theorem topologicalSortBy_sorts :
    ((∃ t, topologicalSortBy dependents p targetNodes = .error (.nodeNotFound t)) ↔
      ∃ t ∈ targetNodes.getD [], t ∉ p.keys) ∧
    ((∃ remaining, topologicalSortBy dependents p targetNodes = .error (.dependencyCycle remaining)) ↔
      (∃ n, TransGen (Feeds p) n n) ∧ ∀ t ∈ targetNodes.getD [], t ∈ p.keys) ∧
    ∀ order, topologicalSortBy dependents p targetNodes = .ok order →
      order.Nodup ∧ Ordered p order ∧ ∀ n, n ∈ order ↔ n ∈ p.keys ∧
        (targetNodes.getD [] = [] ∨ ∃ t ∈ targetNodes.getD [], Upstream p n t) := by
  refine ⟨nodeNotFound_iff, ?_, fun order => topologicalSortBy_spec hd⟩
  have hok : (∃ order, topologicalSortBy dependents p targetNodes = .ok order) ↔ _ :=
    topologicalSortBy_ok_iff hd
  have hmissing : (∃ t, topologicalSortBy dependents p targetNodes = _) ↔ _ := nodeNotFound_iff
  have hcycle : (∃ n, TransGen (Feeds p) n n) ↔ ¬ Acyclic p := by simp [Acyclic]
  rw [hcycle]
  cases hsort : topologicalSortBy dependents p targetNodes with
  | ok order =>
    have hacyclic := hok.mp ⟨order, hsort⟩
    simp [hacyclic.1]
  | error error =>
    rw [hsort] at hok hmissing
    cases error with
    | nodeNotFound t =>
      obtain ⟨t, ht, hnot⟩ := hmissing.mp ⟨_, rfl⟩
      simpa using fun _ => ⟨t, ht, hnot⟩
    | dependencyCycle remaining =>
      have htargets : ∀ t ∈ targetNodes.getD [], t ∈ p.keys := by simpa using hmissing
      have hcyclic : ¬ Acyclic p := by
        intro hacyclic
        obtain ⟨_, h⟩ := hok.mpr ⟨hacyclic, htargets⟩
        cases h
      exact ⟨fun _ => ⟨hcyclic, htargets⟩, fun _ => ⟨remaining, rfl⟩⟩

omit hd

def chainPipeline : Pipeline :=
  Dict.empty.set "join" ⟨"Join", false, Dict.empty.set "df" (.link ⟨"load", "output"⟩)⟩
    |>.set "load" ⟨"Load", false, .empty⟩ |>.set "other" ⟨"Load", false, .empty⟩

theorem topologicalSortBy_sorts_chainPipeline :
    topologicalSortBy (dependentsOf chainPipeline) chainPipeline (some ["join"]) = .ok ["load", "join"] ∧
    Ordered chainPipeline ["load", "join"] ∧ ¬ Upstream chainPipeline "other" "join" := by
  have h : topologicalSortBy (dependentsOf chainPipeline) chainPipeline (some ["join"]) =
    .ok ["load", "join"] := by decide
  obtain ⟨-, hordered, hmem⟩ :=
    (topologicalSortBy_sorts (enumerates_dependentsOf chainPipeline)).2.2 _ h
  refine ⟨h, hordered, fun hup => ?_⟩
  have := (hmem "other").mpr ⟨by decide, .inr ⟨"join", mem_singleton_self _, hup⟩⟩
  simp at this

def loopPipeline : Pipeline :=
  Dict.empty.set "a" ⟨"Loop", false, Dict.empty.set "df" (.link ⟨"a", "output"⟩)⟩

lemma feeds_loopPipeline : Feeds loopPipeline "a" "a" := by
  rw [Feeds]
  decide

/-- A target that is not in the pipeline is reported before the cycle. -/
theorem nodeNotFound_loopPipeline : TransGen (Feeds loopPipeline) "a" "a" ∧
    topologicalSort loopPipeline (some ["b"]) = .error (.nodeNotFound "b") :=
  ⟨.single feeds_loopPipeline, by decide⟩

lemma nodup_fullOrder (p : Pipeline) : (fullOrder p).Nodup :=
  nodup_fullOrderBy (enumerates_dependentsOf p)

theorem topologicalSort_ok_iff : (∃ order, topologicalSort p targetNodes = .ok order) ↔
      Acyclic p ∧ ∀ t ∈ targetNodes.getD [], t ∈ p.keys :=
  topologicalSortBy_ok_iff (enumerates_dependentsOf p)

theorem topologicalSort_spec (h : topologicalSort p targetNodes = .ok order) :
    order.Nodup ∧ ∀ n, n ∈ order ↔ n ∈ p.keys ∧
      (targetNodes.getD [] = [] ∨ ∃ t ∈ targetNodes.getD [], Upstream p n t) := by
  obtain ⟨hn, -, hmem⟩ := topologicalSortBy_spec (enumerates_dependentsOf p) h
  exact ⟨hn, hmem⟩

end Dvt.Pipelines
