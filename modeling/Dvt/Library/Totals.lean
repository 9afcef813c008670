import Mathlib.Data.List.Basic

/-! Totals of a natural measure over a list. -/

namespace Dvt.Library

open List

variable {α : Type}

def total (f : α → ℕ) (xs : List α) : ℕ := xs.foldr (fun x n => f x + n) 0

@[simp] lemma total_nil (f : α → ℕ) : total f [] = 0 := rfl

@[simp] lemma total_cons (f : α → ℕ) (x : α) (xs : List α) :
    total f (x :: xs) = f x + total f xs := rfl

lemma total_append (f : α → ℕ) (xs ys : List α) : total f (xs ++ ys) = total f xs + total f ys := by
  induction xs with
  | nil => simp
  | cons x xs ih =>
    rw [cons_append, total_cons, total_cons]
    omega

variable {xs : List α} {f : α → ℕ}

lemma total_le_length_mul {n : ℕ} (h : ∀ x ∈ xs, f x ≤ n) : total f xs ≤ xs.length * n := by
  induction xs with
  | nil => simp
  | cons x xs ih =>
    have hx := h x mem_cons_self
    have hxs := ih fun y hy => h y (mem_cons_of_mem x hy)
    rw [total_cons, length_cons, Nat.succ_mul]
    omega

lemma total_eq_zero : total f xs = 0 ↔ ∀ x ∈ xs, f x = 0 := by
  induction xs with
  | nil => simp
  | cons x xs ih =>
    rw [total_cons, forall_mem_cons, ← ih]
    omega

lemma total_zip_set {β : Type} {f : α × β → ℕ} {ys : List β} {i : ℕ} {x : α} {y : β}
    (z : α) (hx : xs[i]? = some x) (hy : ys[i]? = some y) :
    total f ((xs.set i z).zip ys) + f (x, y) = total f (xs.zip ys) + f (z, y) := by
  induction xs generalizing i ys with
  | nil => cases hx
  | cons x' xs ih =>
    cases ys with
    | nil => cases hy
    | cons y' ys =>
      cases i with
      | zero =>
        cases hx
        cases hy
        rw [set_cons_zero, zip_cons_cons, zip_cons_cons, total_cons, total_cons]
        omega
      | succ i =>
        have hr := ih hx hy
        rw [set_cons_succ, zip_cons_cons, zip_cons_cons, total_cons, total_cons]
        omega

end Dvt.Library
