import Dvt.Library.Folds
import Mathlib.Data.List.Dedup
import Mathlib.Order.Lattice

/-! Dictionaries that keep the order in which keys were first assigned. -/

namespace Dvt.Library

open List

structure Dict (κ ν : Type) where
  entries : List (κ × ν)
  nodup : (entries.map Prod.fst).Nodup

namespace Dict

variable {κ ν : Type}

instance [DecidableEq κ] [DecidableEq ν] : DecidableEq (Dict κ ν) := fun a b =>
  decidable_of_iff (a.entries = b.entries) (by cases a; cases b; simp)

def empty : Dict κ ν := ⟨[], nodup_nil⟩

def keys (d : Dict κ ν) : List κ := d.entries.map Prod.fst

lemma nodup_keys (d : Dict κ ν) : d.keys.Nodup := d.nodup

def values (d : Dict κ ν) : List ν := d.entries.map Prod.snd

variable [DecidableEq κ]

def get? (d : Dict κ ν) (k : κ) : Option ν :=
  (d.entries.find? fun e => e.1 = k).map Prod.snd

def assign (k : κ) (v : ν) : List (κ × ν) → List (κ × ν)
  | [] => [(k, v)]
  | e :: es => if e.1 = k then (k, v) :: es else e :: assign k v es

variable {k : κ} {v : ν} {es : List (κ × ν)} {k' : κ}

lemma mem_assign_keys : k' ∈ (assign k v es).map Prod.fst ↔ k' = k ∨ k' ∈ es.map Prod.fst := by
  induction es with
  | nil => simp [assign]
  | cons e es ih =>
    by_cases he : e.1 = k
    · simp [assign, he]
    · simp only [assign, he, if_false, map_cons, mem_cons]
      tauto

lemma assign_nodup (h : (es.map Prod.fst).Nodup) : ((assign k v es).map Prod.fst).Nodup := by
  induction es with
  | nil => simp [assign]
  | cons e es ih =>
    obtain ⟨hn, h⟩ := nodup_cons.mp h
    by_cases he : e.1 = k
    · subst he
      simp only [assign]
      exact nodup_cons.mpr ⟨hn, h⟩
    · simp only [assign, he]
      refine nodup_cons.mpr ⟨?_, ih h⟩
      rw [mem_assign_keys]
      exact fun hm => hm.elim he hn

lemma lookup_assign (es : List (κ × ν)) :
    (assign k v es).lookup k' = if k' = k then some v else es.lookup k' := by
  induction es with
  | nil =>
    by_cases h : k' = k
    · simp [assign, h]
    · simp [assign, h]
  | cons e es ih =>
    obtain ⟨key, value⟩ := e
    by_cases he : key = k
    · by_cases h : k' = k
      · simp [assign, he, h]
      · simp [assign, lookup_cons, he, h, beq_false_of_ne h]
    · by_cases h : k' = key
      · subst h
        simp [assign, he]
      · simp [assign, lookup_cons, he, beq_false_of_ne h, ih]

def set (d : Dict κ ν) (k : κ) (v : ν) : Dict κ ν := ⟨assign k v d.entries, assign_nodup d.nodup⟩

@[simp] lemma get?_empty (k : κ) : (empty : Dict κ ν).get? k = none := rfl

lemma get?_set (d : Dict κ ν) (k k' : κ) (v : ν) :
    (d.set k v).get? k' = if k' = k then some v else d.get? k' := by
  obtain ⟨es, hes⟩ := d
  simp only [get?, set]
  clear hes
  induction es with
  | nil =>
    by_cases hk : k' = k
    · simp [assign, hk]
    · simp [assign, hk, Ne.symm hk]
  | cons e es ih =>
    by_cases he : e.1 = k
    · by_cases hk : k' = k
      · simp [assign, he, hk]
      · have hk' : ¬ k = k' := Ne.symm hk
        simp [assign, he, hk, hk']
    · by_cases hek : e.1 = k'
      · have hk : k' ≠ k := fun hk => he (hek.trans hk)
        simp [assign, hek, hk]
      · simpa [assign, he, hek] using ih

variable {d : Dict κ ν}

lemma get?_eq_some : d.get? k = some v ↔ (k, v) ∈ d.entries := by
  obtain ⟨es, hes⟩ := d
  simp only [get?]
  induction es with
  | nil => simp
  | cons e es ih =>
    obtain ⟨hn, hes⟩ := nodup_cons.mp hes
    by_cases he : e.1 = k
    · subst he
      have hm : (e.1, v) ∉ es := fun h => hn (mem_map.mpr ⟨_, h, rfl⟩)
      simp [hm, Prod.ext_iff, eq_comm]
    · have hne : (k, v) ≠ e := fun h => he (congrArg Prod.fst h).symm
      simpa [he, hne] using ih hes

lemma mem_keys : k ∈ d.keys ↔ ∃ v, d.get? k = some v := by
  constructor
  · intro h
    obtain ⟨e, he, rfl⟩ := mem_map.mp h
    exact ⟨e.2, get?_eq_some.mpr he⟩
  · rintro ⟨v, hv⟩
    exact mem_map.mpr ⟨(k, v), get?_eq_some.mp hv, rfl⟩

lemma mem_values : v ∈ d.values ↔ ∃ k, d.get? k = some v := by
  constructor
  · intro h
    obtain ⟨e, he, rfl⟩ := mem_map.mp h
    exact ⟨e.1, get?_eq_some.mpr he⟩
  · rintro ⟨k, hk⟩
    exact mem_map.mpr ⟨(k, v), get?_eq_some.mp hk, rfl⟩

lemma get?_eq_none : d.get? k = none ↔ k ∉ d.keys := by
  rw [mem_keys, not_exists]
  exact Option.eq_none_iff_forall_ne_some

def erase (d : Dict κ ν) (k : κ) : Dict κ ν :=
  ⟨d.entries.filter fun e => e.1 ≠ k, List.Nodup.sublist (filter_sublist.map _) d.nodup⟩

lemma get?_erase (d : Dict κ ν) (k k' : κ) :
    (d.erase k).get? k' = if k' = k then none else d.get? k' := by
  refine Option.ext fun v => ?_
  rw [get?_eq_some]
  simp only [erase]
  by_cases hk : k' = k
  · simp [hk]
  · simp [hk, get?_eq_some]

lemma entries_set_of_notMem (v : ν) (h : k ∉ d.keys) :
    (d.set k v).entries = d.entries ++ [(k, v)] := by
  obtain ⟨entries, nodup⟩ := d
  change assign k v entries = entries ++ [(k, v)]
  replace h : k ∉ entries.map Prod.fst := h
  clear nodup
  induction entries with
  | nil => rfl
  | cons e es ih =>
    rw [map_cons, mem_cons, not_or] at h
    rw [assign, if_neg (Ne.symm h.1), ih h.2, cons_append]

lemma set_of_get?_eq_some (h : d.get? k = some v) : d.set k v = d := by
  have hmem := get?_eq_some.mp h
  obtain ⟨entries, nodup⟩ := d
  have ha : assign k v entries = entries := by
    clear h
    induction entries with
    | nil => cases hmem
    | cons e es ih =>
      obtain ⟨hn, hes⟩ := nodup_cons.mp nodup
      obtain rfl | hmem := mem_cons.mp hmem
      · rw [assign, if_pos rfl]
      · have hne : e.1 ≠ k := fun he => hn (he ▸ mem_map_of_mem hmem)
        rw [assign, if_neg hne, ih hes hmem]
  rw [set]
  congr

variable {d : Dict ℕ ν}

lemma get?_eq_getElem?_values (h : d.keys = List.range d.values.length) (n : ℕ) :
    d.get? n = d.values[n]? := by
  have hentry : ∀ (i : ℕ) (e : ℕ × ν), d.entries[i]? = some e →
      i = e.1 ∧ d.values[i]? = some e.2 := by
    intro i e he
    have hkey : d.keys[i]? = some e.1 := by rw [keys, List.getElem?_map, he, Option.map_some]
    have hvalue : d.values[i]? = some e.2 := by rw [values, List.getElem?_map, he, Option.map_some]
    rw [h, List.getElem?_range (List.getElem?_eq_some_iff.mp hvalue).1] at hkey
    exact ⟨Option.some.inj hkey, hvalue⟩
  refine Option.ext fun v => ?_
  rw [get?_eq_some, mem_iff_getElem?]
  constructor
  · rintro ⟨i, hi⟩
    obtain ⟨rfl, hv⟩ := hentry i _ hi
    exact hv
  · intro hv
    have hlt := (List.getElem?_eq_some_iff.mp hv).1
    rw [values, length_map] at hlt
    have he := List.getElem?_eq_getElem hlt
    obtain ⟨hn, hv'⟩ := hentry n _ he
    exact ⟨n, he.trans (congrArg some (Prod.ext hn.symm (Option.some.inj (hv'.symm.trans hv))))⟩

lemma mapM_getElem?_range' (pre xs : List ν) :
    (List.range' pre.length xs.length).mapM (fun n => (pre ++ xs)[n]?) = some xs := by
  induction xs generalizing pre with
  | nil => rfl
  | cons x xs ih =>
    have hx : (pre ++ x :: xs)[pre.length]? = some x := by simp
    have hxs := ih (pre ++ [x])
    rw [append_assoc, singleton_append, length_append, length_singleton] at hxs
    rw [length_cons, List.range'_succ, mapM_cons, hx, hxs]
    rfl

lemma mapM_get?_range (h : d.keys = List.range d.values.length) :
    (List.range d.values.length).mapM d.get? = some d.values := by
  have hget : d.get? = fun n => ([] ++ d.values)[n]? := funext (get?_eq_getElem?_values h)
  rw [hget, range_eq_range']
  exact mapM_getElem?_range' [] d.values

def mapValues {ν' : Type} (f : ν → ν') (d : Dict κ ν) : Dict κ ν' where
  entries := d.entries.map fun e => (e.1, f e.2)
  nodup := by
    rw [map_map]
    exact d.nodup

lemma get?_mapValues {ν' : Type} (f : ν → ν') (d : Dict κ ν) (k : κ) :
    (d.mapValues f).get? k = (d.get? k).map f := by
  rw [get?, get?, mapValues, List.find?_map, Option.map_map, Option.map_map]
  rfl

def update (d d' : Dict κ ν) : Dict κ ν := d'.entries.foldl (fun d e => d.set e.1 e.2) d

lemma get?_cons {e : κ × ν} (h : ((e :: es).map Prod.fst).Nodup) (k : κ) :
    (⟨e :: es, h⟩ : Dict κ ν).get? k =
      if e.1 = k then some e.2 else (⟨es, (nodup_cons.mp h).2⟩ : Dict κ ν).get? k := by
  rw [get?, List.find?_cons]
  by_cases hk : e.1 = k
  · simp [hk]
  · simp only [hk, if_false]
    rfl

lemma get?_update (d d' : Dict κ ν) (k : κ) : (d.update d').get? k = (d'.get? k).or (d.get? k) := by
  obtain ⟨entries, nodup⟩ := d'
  rw [update]
  induction entries generalizing d with
  | nil => rfl
  | cons e es ih =>
    obtain ⟨hn, hes⟩ := nodup_cons.mp nodup
    rw [foldl_cons, ih (d.set e.1 e.2) hes, get?_set, get?_cons]
    by_cases hk : e.1 = k
    · subst hk
      have hnone : (⟨es, hes⟩ : Dict κ ν).get? e.1 = none := get?_eq_none.mpr hn
      rw [hnone, if_pos rfl, if_pos rfl]
      rfl
    · rw [if_neg (Ne.symm hk), if_neg hk]

variable {α : Type} {f : α → κ} {g : α → ν} {xs : List α}

lemma get?_foldl_set_of_notMem (d : Dict κ ν) (h : k ∉ xs.map f) :
    (xs.foldl (fun d x => d.set (f x) (g x)) d).get? k = d.get? k := by
  induction xs generalizing d with
  | nil => rfl
  | cons x xs ih =>
    rw [map_cons, mem_cons, not_or] at h
    rw [foldl_cons, ih _ h.2, get?_set, if_neg h.1]

lemma get?_foldl_set_of_mem (d : Dict κ ν) (h : k ∈ xs.map f) :
    ∃ x ∈ xs, f x = k ∧ (xs.foldl (fun d x => d.set (f x) (g x)) d).get? k = some (g x) := by
  induction xs generalizing d with
  | nil => cases h
  | cons x xs ih =>
    rw [foldl_cons]
    by_cases hk : k ∈ xs.map f
    · obtain ⟨y, hy, hyk, hget⟩ := ih (d.set (f x) (g x)) hk
      exact ⟨y, mem_cons_of_mem x hy, hyk, hget⟩
    · have hx : k = f x := (mem_cons.mp h).resolve_right hk
      refine ⟨x, mem_cons_self, hx.symm, ?_⟩
      rw [get?_foldl_set_of_notMem _ hk, get?_set, if_pos hx]

/-- `k` is assigned only if there is a value. -/
def put (d : Dict κ ν) (k : κ) : Option ν → Dict κ ν
  | none => d
  | some v => d.set k v

lemma get?_put (d : Dict κ ν) (k k' : κ) (v : Option ν) :
    (d.put k v).get? k' = if k' = k then v.or (d.get? k) else d.get? k' := by
  cases v with
  | none => simp +contextual [put]
  | some v => exact get?_set d k k' v

lemma get?_foldlM_put {β ε : Type} {step : β → α → Except ε β} (dict : β → Dict κ ν)
    (value : α → Except ε (Option ν)) {b b' : β}
    (hstep : ∀ b x b', step b x = .ok b' → ∃ v, value x = .ok v ∧ (dict b).put (f x) v = dict b')
    (hn : (xs.map f).Nodup) (hf : xs.foldlM step b = .ok b') (k : κ) :
    (k ∉ xs.map f → (dict b').get? k = (dict b).get? k) ∧
      ∀ x ∈ xs, f x = k → ∃ v, value x = .ok v ∧ (dict b').get? k = v.or ((dict b).get? k) := by
  induction xs generalizing b with
  | nil =>
    cases hf
    exact ⟨fun _ => rfl, nofun⟩
  | cons y ys ih =>
    obtain ⟨c, hc, hr⟩ := foldlM_cons_ok.mp hf
    obtain ⟨v, hv, hd⟩ := hstep b y c hc
    obtain ⟨hy, hn⟩ := nodup_cons.mp hn
    obtain ⟨hout, hin⟩ := ih hn hr
    refine ⟨fun hk => ?_, fun x hx hfx => ?_⟩
    · rw [map_cons, mem_cons, not_or] at hk
      rw [hout hk.2, ← hd, get?_put, if_neg hk.1]
    · obtain rfl | hx := mem_cons.mp hx
      · refine ⟨v, hv, ?_⟩
        rw [hout (hfx ▸ hy), ← hd, hfx, get?_put, if_pos rfl]
      · obtain ⟨w, hw, hget⟩ := hin x hx hfx
        refine ⟨w, hw, ?_⟩
        rw [hget, ← hd, get?_put, if_neg]
        rintro rfl
        exact hy (hfx ▸ mem_map_of_mem hx)

lemma get?_foldlM_set {ε : Type} {check : α → Except ε ν} {d d' : Dict κ ν} (hn : (xs.map f).Nodup)
    (hf : xs.foldlM (fun d x => do pure (d.set (f x) (← check x))) d = .ok d') {x : α}
    (hx : x ∈ xs) : ∃ v, check x = .ok v ∧ d'.get? (f x) = some v := by
  have hstep : ∀ d x d', (do pure ((d : Dict κ ν).set (f x) (← check x))) = Except.ok d' →
      ∃ v, (check x).map some = .ok v ∧ d.put (f x) v = d' := by
    intro d x d' h
    obtain ⟨v, hv, hset⟩ := bind_eq_ok.mp h
    exact ⟨some v, map_eq_ok.mpr ⟨v, hv, rfl⟩, Except.ok.inj hset⟩
  obtain ⟨v, hv, hget⟩ := (get?_foldlM_put id _ hstep hn hf (f x)).2 x hx rfl
  obtain ⟨w, hw, rfl⟩ := map_eq_ok.mp hv
  exact ⟨w, hw, hget⟩

section

variable {ω : Type} [LinearOrder ω]

def sortedItems (d : Dict ω ν) : List (ω × ν) := d.entries.mergeSort fun a b => a.1 ≤ b.1

lemma perm_sortedItems (d : Dict ω ν) : d.sortedItems.Perm d.entries :=
  mergeSort_perm ..

end

end Dict

end Dvt.Library
