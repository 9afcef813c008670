import Mathlib.Data.List.Pairwise
import Mathlib.Data.List.Sort

/-! Relational tables under unique constraints, and the statements run on them. -/

namespace Dvt.Library

open List

/-- Two rows violate a unique constraint exactly when their columns clash. -/
structure Schema (ρ : Type) where
  Columns : Type
  columns : ρ → Columns
  clash : Columns → Columns → Prop
  symm : ∀ {a b}, clash a b → clash b a
  decClash : DecidableRel clash

variable {ρ κ ι : Type} {S : Schema ρ}

abbrev Schema.unique [DecidableEq κ] (columns : ρ → κ) : Schema ρ :=
  ⟨κ, columns, (· = ·), Eq.symm, inferInstance⟩

/-- Two unique constraints. -/
abbrev Schema.uniques [DecidableEq κ] [DecidableEq ι] (columns : ρ → κ × ι) : Schema ρ :=
  ⟨κ × ι, columns, fun a b => a.1 = b.1 ∨ a.2 = b.2, .imp Eq.symm Eq.symm, fun _ _ => inferInstance⟩

instance : DecidableRel S.clash := S.decClash

structure Table (S : Schema ρ) where
  rows : List ρ
  unique : rows.Pairwise fun a b => ¬ S.clash (S.columns a) (S.columns b)

namespace Table

def empty : Table S := ⟨[], .nil⟩

def insert (t : Table S) (row : ρ) : Option (Table S) :=
  if h : ∀ r ∈ t.rows, ¬ S.clash (S.columns r) (S.columns row) then
    some ⟨t.rows ++ [row], by
      rw [pairwise_append]
      exact ⟨t.unique, pairwise_singleton _ _, fun a ha b hb =>
        mem_singleton.mp hb ▸ h a ha⟩⟩
  else none

def insertAll (t : Table S) (rows : List ρ) : Option (Table S) := rows.foldlM insert t

def update (t : Table S) (p : ρ → Bool) (f : ρ → ρ) (hf : ∀ r, S.columns (f r) = S.columns r) :
    Table S where
  rows := t.rows.map fun r => if p r then f r else r
  unique := by
    rw [pairwise_map]
    refine t.unique.imp fun {a b} h => ?_
    have hc : ∀ r, S.columns (if p r then f r else r) = S.columns r := by
      intro r
      split
      · exact hf r
      · rfl
    rwa [hc a, hc b]

def change (t : Table S) (f : ρ → ρ) : Option (Table S) :=
  if h : (t.rows.map f).Pairwise fun a b => ¬ S.clash (S.columns a) (S.columns b) then
    some ⟨t.rows.map f, h⟩
  else none

def delete (t : Table S) (p : ρ → Bool) : Table S where
  rows := t.rows.filter fun r => !p r
  unique := t.unique.filter _

def select (t : Table S) (p : ρ → Bool) : List ρ := t.rows.filter p

def lookup {κ : Type} [DecidableEq κ] (t : Table S) (key : ρ → κ) (k : κ) : Option ρ :=
  t.rows.find? fun r => key r = k

@[simp] lemma rows_update (t : Table S) (p : ρ → Bool) (f : ρ → ρ) (hf) :
    (t.update p f hf).rows = t.rows.map fun r => if p r then f r else r := rfl

@[simp] lemma rows_delete (t : Table S) (p : ρ → Bool) :
    (t.delete p).rows = t.rows.filter fun r => !p r := rfl

variable {t : Table S}

@[simp] lemma mem_select {p : ρ → Bool} {r : ρ} :
    r ∈ t.select p ↔ r ∈ t.rows ∧ p r = true := mem_filter

variable {t' : Table S} {row : ρ}

lemma rows_insert (h : t.insert row = some t') : t'.rows = t.rows ++ [row] := by
  rw [insert] at h
  split at h
  · cases h
    rfl
  · cases h

lemma rows_insertAll {rows : List ρ} (h : t.insertAll rows = some t') :
    t'.rows = t.rows ++ rows := by
  induction rows generalizing t with
  | nil =>
    cases h
    exact (append_nil _).symm
  | cons row rows ih =>
    obtain ⟨t₁, hi, h⟩ := Option.bind_eq_some_iff.mp h
    rw [ih h, rows_insert hi, append_assoc]
    rfl

lemma insert_eq_none_iff :
    t.insert row = none ↔ ∃ r ∈ t.rows, S.clash (S.columns r) (S.columns row) := by
  simp [insert]

lemma update_eq_self (t : Table S) (p : ρ → Bool) (f : ρ → ρ) (hf)
    (h : ∀ r ∈ t.rows, p r = false) : t.update p f hf = t := by
  have hr : (t.update p f hf).rows = t.rows := by
    exact (map_congr_left fun r hr => by simp [h r hr]).trans (map_id' _)
  cases t
  simpa [update] using hr

lemma eq_of_clash {a b : ρ} (ha : a ∈ t.rows) (hb : b ∈ t.rows)
    (h : S.clash (S.columns a) (S.columns b)) : a = b := by
  by_contra hne
  have : Std.Symm fun a b => ¬ S.clash (S.columns a) (S.columns b) :=
    ⟨fun _ _ hab hba => hab (S.symm hba)⟩
  exact t.unique.forall ha hb hne h

section

variable {κ : Type} {key : ρ → κ}

def IsKey (S : Schema ρ) (key : ρ → κ) : Prop :=
  ∀ a b, key a = key b → S.clash (S.columns a) (S.columns b)

lemma eq_of_key (hk : IsKey S key) {a b : ρ} (ha : a ∈ t.rows) (hb : b ∈ t.rows)
    (h : key a = key b) : a = b := eq_of_clash ha hb (hk a b h)

lemma nodup_keys (hk : IsKey S key) (t : Table S) : (t.rows.map key).Nodup := by
  rw [List.Nodup, pairwise_map]
  exact t.unique.imp fun h he => h (hk _ _ he)

lemma nodup_rows (hk : IsKey S key) (t : Table S) : t.rows.Nodup := (nodup_keys hk t).of_map

variable [DecidableEq κ] {r : ρ}

lemma select_key (hk : IsKey S key) (hr : r ∈ t.rows) :
    t.select (fun q => key q = key r) = [r] := by
  have hn : (t.select fun q => key q = key r).Nodup := (nodup_rows hk t).filter _
  have hall : ∀ q ∈ t.select (fun q => key q = key r), q = r := by
    intro q hq
    obtain ⟨hmem, hkey⟩ := mem_select.mp hq
    exact eq_of_key hk hmem hr (of_decide_eq_true hkey)
  have hmem : r ∈ t.select fun q => key q = key r := mem_select.mpr ⟨hr, decide_eq_true rfl⟩
  rw [eq_replicate_of_mem hall] at hn ⊢
  have hle := nodup_replicate.mp hn
  have hpos := length_pos_of_mem hmem
  rw [show (t.select fun q => key q = key r).length = 1 by omega]
  rfl

variable {k : κ}

lemma lookup_mem (h : t.lookup key k = some r) : r ∈ t.rows :=
  mem_of_find?_eq_some h

lemma lookup_key (h : t.lookup key k = some r) : key r = k := by
  simpa using List.find?_some h

lemma lookup_eq_none : t.lookup key k = none ↔ ∀ r ∈ t.rows, key r ≠ k := by
  simp [lookup]

lemma lookup_insert {t' : Table S} {row : ρ} (h : t.insert row = some t')
    (hn : t.lookup key (key row) = none) (k : κ) :
    t'.lookup key k = if key row = k then some row else t.lookup key k := by
  simp only [lookup, rows_insert h]
  split
  · next he =>
    subst he
    have hf : List.find? (fun r => decide (key r = key row)) t.rows = none := hn
    simp [hf]
  · next he => simp [he]

lemma lookup_update (t : Table S) (p : ρ → Bool) (f : ρ → ρ) (hf) (hkey : ∀ r, key (f r) = key r)
    (k : κ) :
    (t.update p f hf).lookup key k = (t.lookup key k).map fun r => if p r then f r else r := by
  have hc : (fun r => decide (key r = k)) ∘ (fun r => if p r then f r else r) =
      fun r => decide (key r = k) := by
    funext r
    by_cases hp : p r <;> simp [hp, hkey]
  rw [lookup, rows_update, List.find?_map, hc]
  rfl

lemma lookup_eq_some (hk : IsKey S key) : t.lookup key k = some r ↔ r ∈ t.rows ∧ key r = k := by
  constructor
  · exact fun h => ⟨lookup_mem h, lookup_key h⟩
  · rintro ⟨hr, rfl⟩
    cases h : t.lookup key (key r) with
    | none => exact absurd rfl (lookup_eq_none.mp h r hr)
    | some q => rw [eq_of_key hk (lookup_mem h) hr (lookup_key h)]

lemma select_nonempty_iff (hk : IsKey S key) {p : ρ → Bool} (hp : ∀ r, p r = true → key r = k) :
    (!(t.select p).isEmpty) = true ↔ ∃ r, t.lookup key k = some r ∧ p r = true := by
  rw [Bool.not_eq_true', isEmpty_eq_false_iff_exists_mem]
  constructor
  · rintro ⟨r, hr⟩
    obtain ⟨hmem, hpr⟩ := mem_select.mp hr
    exact ⟨r, (lookup_eq_some hk).mpr ⟨hmem, hp r hpr⟩, hpr⟩
  · rintro ⟨r, hr, hpr⟩
    exact ⟨r, mem_select.mpr ⟨lookup_mem hr, hpr⟩⟩

lemma delete_take_perm (hk : IsKey S key) {l : List ρ} (hp : l.Perm t.rows) (n : ℕ) :
    (t.delete fun r => key r ∈ (l.take n).map key).rows.Perm (l.drop n) := by
  have hn : (l.map key).Nodup := (hp.map key).nodup_iff.mpr (nodup_keys hk t)
  rw [← take_append_drop n l, map_append] at hn
  have hd := disjoint_of_nodup_append hn
  have ht : (l.take n).filter (fun r => !decide (key r ∈ (l.take n).map key)) = [] := by
    rw [filter_eq_nil_iff]
    intro r hr
    have hin : key r ∈ (l.take n).map key := mem_map_of_mem hr
    simpa using hin
  have hdrop : (l.drop n).filter (fun r => !decide (key r ∈ (l.take n).map key)) = l.drop n := by
    rw [filter_eq_self]
    intro r hr
    have hnot : key r ∉ (l.take n).map key := fun h => hd h (mem_map_of_mem hr)
    simpa using hnot
  have hf : l.filter (fun r => !decide (key r ∈ (l.take n).map key)) = l.drop n := by
    calc l.filter (fun r => !decide (key r ∈ (l.take n).map key))
        = (l.take n ++ l.drop n).filter (fun r => !decide (key r ∈ (l.take n).map key)) := by
          rw [take_append_drop]
      _ = l.drop n := by rw [filter_append, ht, hdrop, nil_append]
  exact (hp.symm.filter _).trans (List.Perm.of_eq hf)

end

end Table

end Dvt.Library
