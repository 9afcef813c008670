import Mathlib.Data.List.Lex
import Mathlib.Data.Nat.Digits.Defs
import Mathlib.Tactic.IntervalCases

/-! Fixed-width decimal numerals compare as the numbers do. -/

namespace Dvt.Library

def decimal : ℕ → ℕ → List Char
  | 0, _ => []
  | w + 1, n => Nat.digitChar (n / 10 ^ w) :: decimal w (n % 10 ^ w)

variable {a b : ℕ}

lemma digitChar_lt (ha : a < 10) (hb : b < 10) : Nat.digitChar a < Nat.digitChar b ↔ a < b := by
  interval_cases a <;> interval_cases b <;> decide

lemma digitChar_inj (ha : a < 10) (hb : b < 10) : Nat.digitChar a = Nat.digitChar b ↔ a = b := by
  interval_cases a <;> interval_cases b <;> decide

variable {B : ℕ}

lemma radix_lt {a' b' : ℕ} (hb : b < B) (hb' : b' < B) :
    a * B + b < a' * B + b' ↔ a < a' ∨ a = a' ∧ b < b' := by
  rcases lt_trichotomy a a' with h | rfl | h
  · have := Nat.mul_le_mul_right B h
    rw [Nat.succ_mul] at this
    omega
  · simp
  · have := Nat.mul_le_mul_right B h
    rw [Nat.succ_mul] at this
    omega

lemma div_mod_lt (hB : 0 < B) : a < b ↔ a / B < b / B ∨ a / B = b / B ∧ a % B < b % B := by
  have h : a / B * B + a % B < b / B * B + b % B ↔ _ := radix_lt (Nat.mod_lt a hB) (Nat.mod_lt b hB)
  rwa [Nat.div_add_mod', Nat.div_add_mod'] at h

lemma div_mod_eq : a = b ↔ a / B = b / B ∧ a % B = b % B := by
  constructor
  · rintro rfl
    exact ⟨rfl, rfl⟩
  · rintro ⟨hd, hm⟩
    rw [← Nat.div_add_mod' a B, ← Nat.div_add_mod' b B, hd, hm]

lemma decimal_append_lt (w : ℕ) (ha : a < 10 ^ w) (hb : b < 10 ^ w) (s t : List Char) :
    decimal w a ++ s < decimal w b ++ t ↔ a < b ∨ a = b ∧ s < t := by
  induction w generalizing a b with
  | zero =>
    obtain rfl : a = 0 := by simpa using ha
    obtain rfl : b = 0 := by simpa using hb
    simp [decimal]
  | succ w ih =>
    have hP : 0 < 10 ^ w := by positivity
    have had : a / 10 ^ w < 10 := Nat.div_lt_of_lt_mul (by rwa [pow_succ] at ha)
    have hbd : b / 10 ^ w < 10 := Nat.div_lt_of_lt_mul (by rwa [pow_succ] at hb)
    simp only [decimal, List.cons_append, List.cons_lt_cons_iff, digitChar_lt had hbd,
      digitChar_inj had hbd, ih (Nat.mod_lt a hP) (Nat.mod_lt b hP)]
    rw [div_mod_lt (a := a) (b := b) hP, div_mod_eq (a := a) (b := b) (B := 10 ^ w)]
    tauto

end Dvt.Library
