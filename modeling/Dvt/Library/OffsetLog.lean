import Mathlib.Data.List.Nodup
import Mathlib.Data.List.Range
import Mathlib.Data.List.Perm.Subperm

/-! Logs with entries at increasing offsets, with gaps, and their half-open slices. -/

namespace Dvt.Library

open List

structure OffsetLog {μ : Type} (offset : μ → ℕ) where
  entries : List μ
  sorted : entries.Pairwise fun a b => offset a < offset b

namespace OffsetLog

variable {μ : Type} {offset : μ → ℕ} (log : OffsetLog offset) {a b c : ℕ}

def slice (a b : ℕ) : List μ := log.entries.filter fun m => a ≤ offset m ∧ offset m < b

variable {m : μ}

lemma mem_slice : m ∈ log.slice a b ↔ m ∈ log.entries ∧ a ≤ offset m ∧ offset m < b := by
  simp [slice]

lemma slice_self (a : ℕ) : log.slice a a = [] := by
  rw [slice, filter_eq_nil_iff]
  intro m _
  simp only [decide_eq_true_eq]
  omega

lemma sorted_slice (a b : ℕ) : (log.slice a b).Pairwise fun x y => offset x < offset y :=
  log.sorted.filter _

lemma nodup_slice (a b : ℕ) : (log.slice a b).Nodup :=
  (log.sorted_slice a b).imp fun {x y} h heq => by
    subst heq
    exact Nat.lt_irrefl _ h

lemma slice_append (hab : a ≤ b) (hbc : b ≤ c) : log.slice a b ++ log.slice b c = log.slice a c := by
  obtain ⟨entries, sorted⟩ := log
  simp only [slice]
  induction entries with
  | nil => rfl
  | cons x xs ih =>
    obtain ⟨hx, hxs⟩ := pairwise_cons.mp sorted
    have ih := ih hxs
    by_cases hb : offset x < b
    · by_cases ha : a ≤ offset x
      · have hc : offset x < c := by omega
        simp only [filter_cons, ha, hb, hc, Nat.not_le.mpr hb, and_true, decide_true,
          decide_false, if_true, Bool.false_eq_true, if_false, cons_append, ih]
      · simp only [filter_cons, ha, Nat.not_le.mpr hb, false_and, decide_false,
          Bool.false_eq_true, if_false, ih]
    · -- from here on all offsets are past the cut, so the first slice is empty
      have hnil : (x :: xs).filter (fun m => a ≤ offset m ∧ offset m < b) = [] := by
        rw [filter_eq_nil_iff]
        intro m hm
        have hle : offset x ≤ offset m := by
          obtain rfl | hm := mem_cons.mp hm
          · exact Nat.le_refl _
          · exact Nat.le_of_lt (hx m hm)
        simp only [decide_eq_true_eq]
        omega
      rw [hnil]
      refine filter_congr fun m hm => ?_
      have hle : offset x ≤ offset m := by
        obtain rfl | hm := mem_cons.mp hm
        · exact Nat.le_refl _
        · exact Nat.le_of_lt (hx m hm)
      have hbm : b ≤ offset m := by omega
      have ham : a ≤ offset m := by omega
      simp [hbm, ham]

lemma slice_eq_nil_of_le (hab : a ≤ b) (hbc : b ≤ c) (h : log.slice a c = []) :
    log.slice a b = [] := by
  rw [← log.slice_append hab hbc] at h
  exact (append_eq_nil_iff.mp h).1

lemma length_slice_le (a b : ℕ) : (log.slice a b).length ≤ b - a := by
  have hn : ((log.slice a b).map offset).Nodup :=
    pairwise_map.mpr ((log.sorted_slice a b).imp fun h => Nat.ne_of_lt h)
  have hsub : (log.slice a b).map offset ⊆ List.range' a (b - a) := by
    intro k hk
    obtain ⟨m, hm, rfl⟩ := mem_map.mp hk
    obtain ⟨_, ha, hb⟩ := log.mem_slice.mp hm
    rw [mem_range'_1]
    omega
  have hlen := (subperm_of_subset hn hsub).length_le
  rwa [length_map, length_range'] at hlen

lemma slice_succ_getLast (h : (log.slice a b).getLast? = some m) :
    log.slice a (offset m + 1) = log.slice a b := by
  have hm := mem_of_getLast? h
  obtain ⟨_, ham, hmb⟩ := log.mem_slice.mp hm
  have hnil : log.slice (offset m + 1) b = [] := by
    rw [eq_nil_iff_forall_not_mem]
    intro x hx
    obtain ⟨hentry, hmx, hxb⟩ := log.mem_slice.mp hx
    have hx : x ∈ log.slice a b := log.mem_slice.mpr ⟨hentry, by omega, hxb⟩
    obtain ⟨ys, hys⟩ := List.getLast?_eq_some_iff.mp h
    have hs := log.sorted_slice a b
    rw [hys] at hx hs
    obtain hx | hx := mem_append.mp hx
    · have := (pairwise_append.mp hs).2.2 x hx m mem_cons_self
      omega
    · cases mem_singleton.mp hx
      omega
  have ha := log.slice_append (a := a) (b := offset m + 1) (c := b) (by omega) (by omega)
  rwa [hnil, append_nil] at ha

lemma slice_eq_nil_of_eq {d : ℕ} (hab : a ≤ b) (hbc : b ≤ c) (hcd : c ≤ d)
    (h : log.slice a d = log.slice b c) : log.slice c d = [] := by
  have hlen := congrArg List.length h
  rw [← log.slice_append hab (hbc.trans hcd), ← log.slice_append hbc hcd, length_append,
    length_append] at hlen
  exact length_eq_zero_iff.mp (by omega)

lemma slice_cons {rest : List μ} (h : log.slice a b = m :: rest) :
    log.slice a (offset m) = [] ∧ log.slice a (offset m + 1) = [m] ∧
      log.slice (offset m + 1) b = rest := by
  have hm : m ∈ log.slice a b := by simp [h]
  obtain ⟨hentry, ham, hmb⟩ := log.mem_slice.mp hm
  have hs := log.sorted_slice a b
  rw [h, pairwise_cons] at hs
  have hb : log.slice a (offset m) = [] := by
    rw [eq_nil_iff_forall_not_mem]
    intro x hx
    obtain ⟨hxen, hax, hxm⟩ := log.mem_slice.mp hx
    have hx : x ∈ log.slice a b := log.mem_slice.mpr ⟨hxen, hax, by omega⟩
    rw [h] at hx
    obtain rfl | hx := mem_cons.mp hx
    · omega
    · have := hs.1 x hx
      omega
  have hw := log.slice_append (a := a) (b := offset m + 1) (c := b) (by omega) (by omega)
  rw [h] at hw
  cases hf : log.slice a (offset m + 1) with
  | nil =>
    have hm : m ∈ log.slice a (offset m + 1) := log.mem_slice.mpr ⟨hentry, ham, Nat.lt_succ_self _⟩
    rw [hf] at hm
    cases hm
  | cons x xs =>
    rw [hf, cons_append] at hw
    obtain ⟨rfl, hr⟩ := List.cons.inj hw
    -- a further entry would stand after `m` and before the next offset
    have hxs : xs = [] := by
      rw [eq_nil_iff_forall_not_mem]
      intro y hy
      have hlt := hs.1 y (hr ▸ mem_append_left _ hy)
      have hle := (log.mem_slice.mp (hf ▸ mem_cons_of_mem x hy)).2.2
      omega
    rw [hxs] at hr
    rw [hxs]
    exact ⟨hb, rfl, hr⟩

end OffsetLog

end Dvt.Library
