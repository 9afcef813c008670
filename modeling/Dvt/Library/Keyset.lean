import Mathlib.Data.List.Infix
import Mathlib.Order.Lattice

/-! Pages of an ordered list, each found from the last row of the page before. -/

namespace Dvt.Library

open List

variable {ν : Type} {after : ν → List ν} {limit fuel : ℕ} {all rows found : List ν}

def followPages (after : ν → List ν) (limit : ℕ) : ℕ → List ν → Option (List ν)
  | 0, _ => none
  | fuel + 1, rows =>
    if rows.length ≤ limit then some rows
    else (rows.take limit).getLast?.bind fun last =>
      (followPages after limit fuel (after last)).map (rows.take limit ++ ·)

lemma head?_followPages (hl : 0 < limit) (h : followPages after limit fuel rows = some found) :
    found.head? = rows.head? := by
  cases fuel with
  | zero => cases h
  | succ fuel =>
    rw [followPages] at h
    split_ifs at h with hlast
    · cases h
      rfl
    · obtain ⟨last, _, hmap⟩ := Option.bind_eq_some_iff.mp h
      obtain ⟨rest, _, rfl⟩ := Option.map_eq_some_iff.mp hmap
      cases rows with
      | nil => simp at hlast
      | cons x rows =>
        obtain ⟨n, rfl⟩ := Nat.exists_eq_succ_of_ne_zero hl.ne'
        simp

lemma eq_of_suffix_of_head? {a b : List ν} {x : ν} (hall : all.Nodup) (ha : a <:+ all)
    (hb : b <:+ all) (hxa : a.head? = some x) (hxb : b.head? = some x) : a = b := by
  have hl : ∀ {a b : List ν}, b.Nodup → a <:+ b → a.head? = some x → b.head? = some x → a = b := by
    rintro a _ hn ⟨_ | ⟨y, front⟩, rfl⟩ hxa hxb
    · rfl
    · obtain ⟨rest, rfl⟩ := head?_eq_some_iff.mp hxa
      simp_all
  obtain h | h := suffix_or_suffix_of_suffix ha hb
  · exact hl (hall.sublist hb.sublist) h hxa hxb
  · exact (hl (hall.sublist ha.sublist) h hxb hxa).symm

lemma followPages_iff (hall : all.Nodup) (ha : ∀ x, after x <:+ all) (hl : 0 < limit) (k : ℕ) :
    (∃ fuel, followPages after limit fuel (all.drop (k * limit)) = some (all.drop (k * limit))) ↔
      ∀ j > k, ∀ last, j * limit < all.length → all[j * limit - 1]? = some last →
        after last = all.drop (j * limit) := by
  induction hn : all.length - k * limit using Nat.strong_induction_on generalizing k with
  | _ n ih =>
    have hnext : (k + 1) * limit = k * limit + limit := Nat.succ_mul k limit
    by_cases hlast : all.length ≤ (k + 1) * limit
    · refine iff_of_true ⟨1, ?_⟩ fun j hj last hlt => ?_
      · rw [followPages, if_pos (by rw [length_drop]; omega)]
      · have hle : (k + 1) * limit ≤ j * limit := Nat.mul_le_mul_right limit hj
        omega
    · obtain ⟨last, hget⟩ : ∃ last, all[(k + 1) * limit - 1]? = some last :=
        ⟨_, getElem?_eq_getElem (by omega)⟩
      have hrows : ((all.drop (k * limit)).take limit).getLast? = some last := by
        rw [getLast?_eq_getElem?, length_take_of_le (by rw [length_drop]; omega),
          getElem?_take_of_lt (by omega), getElem?_drop, ← hget]
        congr 1
        omega
      have hcut : all.drop (k * limit) =
          (all.drop (k * limit)).take limit ++ all.drop ((k + 1) * limit) := by
        rw [hnext, ← drop_drop, take_append_drop]
      have hstep : ∀ fuel, followPages after limit (fuel + 1) (all.drop (k * limit)) =
            some (all.drop (k * limit)) ↔
          followPages after limit fuel (after last) = some (all.drop ((k + 1) * limit)) := by
        intro fuel
        rw [followPages, if_neg (by rw [length_drop]; omega), hrows, Option.bind_some,
          Option.map_eq_some_iff]
        constructor
        · rintro ⟨found, hf, heq⟩
          rw [hf, append_cancel_left (heq.trans hcut)]
        · exact fun h => ⟨_, h, hcut.symm⟩
      have hr := ih (all.length - (k + 1) * limit) (by omega) (k + 1) rfl
      constructor
      · rintro ⟨_ | fuel, h⟩
        · cases h
        · rw [hstep] at h
          have hh : (all.drop ((k + 1) * limit)).head? = some (all[(k + 1) * limit]) := by
            rw [head?_drop, getElem?_eq_getElem]
          have heq : after last = all.drop ((k + 1) * limit) :=
            eq_of_suffix_of_head? hall (ha last) (drop_suffix _ _)
              ((head?_followPages hl h).symm.trans hh) hh
          rw [heq] at h
          intro j hj last' hlt hget'
          by_cases hjk : j = k + 1
          · subst hjk
            rwa [Option.some.inj (hget'.symm.trans hget)]
          · exact hr.mp ⟨fuel, h⟩ j (by omega) last' hlt hget'
      · intro h
        obtain ⟨fuel, hfuel⟩ := hr.mpr fun j hj => h j (by omega)
        refine ⟨fuel + 1, (hstep fuel).mpr ?_⟩
        rwa [h (k + 1) (Nat.lt_succ_self k) last (by omega) hget]

section

variable {κ : Type} [LinearOrder κ] {key : ν → κ} (hall : all.Pairwise (key · < key ·))
include hall

lemma filter_suffix (cursor : κ) : (all.filter (cursor < key ·)) <:+ all := by
  induction all with
  | nil => simp
  | cons x all ih =>
    obtain ⟨hx, hall⟩ := pairwise_cons.mp hall
    by_cases hc : cursor < key x
    · rw [filter_eq_self.mpr]
      exact fun y hy => decide_eq_true ((mem_cons.mp hy).elim (· ▸ hc) (hc.trans <| hx y ·))
    · rw [filter_cons_of_neg (by simpa using hc)]
      exact (ih hall).trans (suffix_cons x all)

lemma filter_eq_drop {i : ℕ} {last : ν} (h : all[i]? = some last) :
    all.filter (key last < key ·) = all.drop (i + 1) := by
  induction all generalizing i with
  | nil => cases h
  | cons x all ih =>
    obtain ⟨hx, hall⟩ := pairwise_cons.mp hall
    cases i with
    | zero =>
      obtain rfl : x = last := by simpa using h
      simpa using hx
    | succ i =>
      have hl : key x < key last := hx last (mem_of_getElem? h)
      rw [filter_cons_of_neg (by simpa using hl.le), ih hall h, drop_succ_cons]

end

end Dvt.Library
