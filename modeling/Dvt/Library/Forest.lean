import Mathlib.Data.List.Basic
import Mathlib.Data.Option.Basic
import Mathlib.Logic.Relation

/-! Forests given by a parent function: climbing, bounded height, moving a subtree. -/

namespace Dvt.Library

open Relation

variable {α : Type} (parent : α → Option α)

/-- The node `k` links above `a`, if the chain is that long. -/
def climb : ℕ → α → Option α
  | 0, a => some a
  | k + 1, a => (parent a).bind (climb k)

def Bounded (d : ℕ) : Prop := ∀ a, climb parent d a = none

def ChildOf (a b : α) : Prop := parent a = some b

variable {parent} {a b c : α} {d i j k : ℕ}

@[simp] lemma climb_zero : climb parent 0 a = some a := rfl

lemma climb_add (i j : ℕ) (a : α) : climb parent (i + j) a = (climb parent i a).bind (climb parent j) := by
  induction i generalizing a with
  | zero => simp
  | succ i ih =>
    rw [Nat.add_right_comm, climb, climb, Option.bind_assoc]
    exact congrArg _ (funext ih)

lemma climb_succ (k : ℕ) (a : α) : climb parent (k + 1) a = (climb parent k a).bind parent := by
  rw [climb_add]
  congr
  funext b
  cases hb : parent b <;> simp [climb, hb]

lemma climb_mono (h : climb parent i a = none) (hij : i ≤ j) : climb parent j a = none := by
  obtain ⟨k, rfl⟩ := Nat.exists_eq_add_of_le hij
  rw [climb_add, h, Option.bind_none]

lemma climb_of_climb (h : climb parent i a = some b) : climb parent (i + j) a = climb parent j b := by
  rw [climb_add, h, Option.bind_some]

lemma climb_of_transGen (h : TransGen (ChildOf parent) a b) : ∃ k, climb parent (k + 1) a = some b := by
  induction h with
  | single h => exact ⟨0, by rw [climb_succ, climb_zero, Option.bind_some, h]⟩
  | tail _ h ih =>
    obtain ⟨k, hk⟩ := ih
    exact ⟨k + 1, by rw [climb_succ, hk, Option.bind_some, h]⟩

lemma Bounded.lt_of_climb (hd : Bounded parent d) (h : climb parent k a = some b) : k < d := by
  by_contra hk
  rw [climb_mono (hd a) (Nat.le_of_not_lt hk)] at h
  cases h

lemma climb_mul (h : climb parent k a = some a) (n : ℕ) : climb parent (n * k) a = some a := by
  induction n with
  | zero => simp
  | succ n ih => rw [Nat.succ_mul, climb_of_climb ih, h]

lemma Bounded.climb_ne_self (hd : Bounded parent d) (hk : 0 < k) : climb parent k a ≠ some a := by
  intro h
  have hlt := hd.lt_of_climb (climb_mul h d)
  have hle : d * 1 ≤ d * k := Nat.mul_le_mul_left d hk
  omega

lemma Bounded.acyclic (hd : Bounded parent d) (a : α) : ¬ TransGen (ChildOf parent) a a := by
  intro h
  obtain ⟨k, hk⟩ := climb_of_transGen h
  exact hd.climb_ne_self k.succ_pos hk

lemma Bounded.climb_unique (hd : Bounded parent d) (hi : climb parent i a = some b)
    (hj : climb parent j a = some b) : i = j := by
  wlog hij : i ≤ j generalizing i j
  · exact (this hj hi (Nat.le_of_not_le hij)).symm
  obtain ⟨k, rfl⟩ := Nat.exists_eq_add_of_le hij
  rw [climb_of_climb hi] at hj
  rcases Nat.eq_zero_or_pos k with rfl | hk
  · rfl
  · exact absurd hj (hd.climb_ne_self hk)

variable {path : List α}

lemma climb_of_isChain (h : (a :: path).IsChain (ChildOf parent)) :
    ∃ b, climb parent path.length a = some b := by
  induction path generalizing a with
  | nil => exact ⟨a, rfl⟩
  | cons c path ih =>
    rw [List.isChain_cons_cons] at h
    obtain ⟨b, hb⟩ := ih h.2
    exact ⟨b, by rw [List.length_cons, climb, h.1, Option.bind_some, hb]⟩

lemma Bounded.length_le (hd : Bounded parent d)
    (h : path.IsChain (ChildOf parent)) : path.length ≤ d := by
  cases path with
  | nil => exact Nat.zero_le d
  | cons a path =>
    obtain ⟨b, hb⟩ := climb_of_isChain h
    exact hd.lt_of_climb hb

section

variable [DecidableEq α] {q : Option α}

lemma climb_update_of_avoids (h : ∀ i < k, climb parent i b ≠ some a) :
    climb (Function.update parent a q) k b = climb parent k b := by
  induction k generalizing b with
  | zero => rfl
  | succ k ih =>
    have hb : b ≠ a := fun he => h 0 k.succ_pos (by rw [climb_zero, he])
    rw [climb, climb, Function.update_of_ne hb]
    cases hp : parent b with
    | none => rfl
    | some c =>
      refine ih fun i hi => ?_
      have hc := h (i + 1) (Nat.succ_lt_succ hi)
      rwa [climb, hp] at hc

lemma Bounded.update (hd : Bounded parent d) {height depth : ℕ}
    (hh : ∀ b k, climb parent k b = some a → k < height)
    (hq : ∀ p ∈ q, climb parent depth p = none ∧ ∀ k, climb parent k p ≠ some a)
    (hsum : depth + height ≤ d) : Bounded (Function.update parent a q) d := by
  intro b
  by_cases hb : ∃ k, climb parent k b = some a
  · obtain ⟨k, hk⟩ := hb
    -- the chain below `a` is untouched, the one above it is that of the new parent
    have hbel : climb (Function.update parent a q) k b = some a := by
      rw [climb_update_of_avoids fun i hi h => Nat.ne_of_lt hi (hd.climb_unique h hk), hk]
    have ha : climb (Function.update parent a q) (depth + 1) a = none := by
      rw [climb, Function.update_self]
      cases q with
      | none => rfl
      | some p =>
        obtain ⟨hn, havo⟩ := hq p rfl
        rw [Option.bind_some, climb_update_of_avoids fun i _ => havo i, hn]
    have hlt := hh b k hk
    refine climb_mono (i := k + (depth + 1)) ?_ (by omega)
    rw [climb_of_climb hbel, ha]
  · rw [climb_update_of_avoids fun i _ h => hb ⟨i, h⟩, hd b]

end

end Dvt.Library
