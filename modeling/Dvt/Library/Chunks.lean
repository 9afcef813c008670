import Mathlib.Data.List.Basic

/-! A list cut into pieces of one length, the last perhaps shorter. -/

namespace Dvt.Library

open List

variable {α : Type}

def chunks (size : ℕ) (xs : List α) : List (List α) :=
  (List.range ((xs.length + size - 1) / size)).map fun i => (xs.drop (i * size)).take size

lemma flatten_map_take_drop (size : ℕ) (xs : List α) (k : ℕ) :
    ((List.range k).map fun i => (xs.drop (i * size)).take size).flatten = xs.take (k * size) := by
  induction k with
  | zero => simp
  | succ k ih =>
    rw [range_succ, map_append, flatten_append, ih, Nat.succ_mul, take_add]
    simp

variable {size : ℕ}

lemma flatten_chunks (hs : 0 < size) (xs : List α) : (chunks size xs).flatten = xs := by
  rw [chunks, flatten_map_take_drop, take_of_length_le]
  have hdiv := Nat.div_add_mod (xs.length + size - 1) size
  have hmod := Nat.mod_lt (xs.length + size - 1) hs
  rw [Nat.mul_comm] at hdiv
  omega

end Dvt.Library
