import Dvt.Library.Lines
import Mathlib.Data.Nat.Digits.Lemmas

/-! Integers as decimal text. -/

namespace Dvt.Library

open List

/-- Where the runs of decimal digits start, of which Unicode has one for each script. -/
def digitZeros : List ℕ :=
  [0x30, 0x660, 0x6f0, 0x7c0, 0x966, 0x9e6, 0xa66, 0xae6, 0xb66, 0xbe6, 0xc66, 0xce6, 0xd66, 0xde6,
    0xe50, 0xed0, 0xf20, 0x1040, 0x1090, 0x17e0, 0x1810, 0x1946, 0x19d0, 0x1a80, 0x1a90, 0x1b50,
    0x1bb0, 0x1c40, 0x1c50, 0xa620, 0xa8d0, 0xa900, 0xa9d0, 0xa9f0, 0xaa50, 0xabf0, 0xff10, 0x104a0,
    0x10d30, 0x11066, 0x110f0, 0x11136, 0x111d0, 0x112f0, 0x11450, 0x114d0, 0x11650, 0x116c0,
    0x11730, 0x118e0, 0x11950, 0x11c50, 0x11d50, 0x11da0, 0x11f50, 0x16a60, 0x16ac0, 0x16b50,
    0x1d7ce, 0x1d7d8, 0x1d7e2, 0x1d7ec, 0x1d7f6, 0x1e140, 0x1e2f0, 0x1e4f0, 0x1e950, 0x1fbf0]

def digitValue (c : Char) : Option ℕ :=
  (digitZeros.find? fun first => first ≤ c.toNat ∧ c.toNat ≤ first + 9).map (c.toNat - ·)

/-- The digits after the ones read as `value`: an underscore may stand before each. -/
def readDigits (value : ℕ) : List Char → Option ℕ
  | [] => some value
  | '_' :: c :: text => (digitValue c).bind fun digit => readDigits (10 * value + digit) text
  | c :: text => (digitValue c).bind fun digit => readDigits (10 * value + digit) text

def readNat : List Char → Option ℕ
  | [] => none
  | c :: text => (digitValue c).bind fun digit => readDigits digit text

def str : ℤ → List Char
  | .ofNat n => Nat.toDigits 10 n
  | .negSucc n => '-' :: Nat.toDigits 10 (n + 1)

def int (text : List Char) : Option ℤ :=
  match stripSpace text with
  | '-' :: digits => (readNat digits).map fun n : ℕ => -(n : ℤ)
  | '+' :: digits => (readNat digits).map Int.ofNat
  | digits => (readNat digits).map Int.ofNat

variable {c : Char} {text : List Char} {n : ℕ}

lemma toNat_of_isDigit (h : c.isDigit) : 0x30 ≤ c.toNat ∧ c.toNat ≤ 0x39 := by
  simpa [Char.isDigit, UInt32.le_iff_toNat_le] using h

lemma digitValue_of_isDigit (h : c.isDigit) : digitValue c = some (c.toNat - '0'.toNat) := by
  have hfirst : digitZeros.find? (fun first => first ≤ c.toNat ∧ c.toNat ≤ first + 9) = some 0x30 := by
    simp [digitZeros, toNat_of_isDigit h]
  rw [digitValue, hfirst]
  rfl

lemma readDigits_of_isDigit (value : ℕ) (h : ∀ c ∈ text, c.isDigit) :
    readDigits value text = some (Nat.ofDigitChars 10 text value) := by
  induction text generalizing value with
  | nil => rfl
  | cons c text ih =>
    obtain ⟨hc, ht⟩ := forall_mem_cons.mp h
    have hne : c ≠ '_' := by
      rintro rfl
      cases hc
    rw [readDigits.eq_3 _ _ _ (by grind), digitValue_of_isDigit hc, Option.bind_some, ih _ ht,
      Nat.ofDigitChars_cons]

lemma isDigit_of_mem_toDigits (h : c ∈ Nat.toDigits 10 n) : c.isDigit :=
  Nat.isDigit_of_mem_toDigits (by decide) le_rfl h

lemma readNat_toDigits (n : ℕ) : readNat (Nat.toDigits 10 n) = some n := by
  have hd : ∀ c ∈ Nat.toDigits 10 n, c.isDigit := fun _ => isDigit_of_mem_toDigits
  have hn : Nat.ofDigitChars 10 (Nat.toDigits 10 n) 0 = n := Nat.ofDigitChars_ten_toDigits
  cases ht : Nat.toDigits 10 n with
  | nil => exact absurd ht Nat.toDigits_ne_nil
  | cons c text =>
    rw [ht] at hd hn
    obtain ⟨hc, ht⟩ := forall_mem_cons.mp hd
    rw [readNat, digitValue_of_isDigit hc, Option.bind_some, readDigits_of_isDigit _ ht]
    simpa [Nat.ofDigitChars_cons] using hn

lemma not_isSpace_of_mem_str {n : ℤ} (h : c ∈ str n) : ¬ isSpace c := by
  have hd : ∀ m : ℕ, c ∈ Nat.toDigits 10 m → ¬ isSpace c := by
    intro m hm
    have := toNat_of_isDigit (isDigit_of_mem_toDigits hm)
    simp only [isSpace, decide_eq_true_eq, mem_cons, not_mem_nil, or_false]
    omega
  cases n with
  | ofNat m => exact hd m h
  | negSucc m =>
    obtain rfl | h := mem_cons.mp h
    · decide
    · exact hd _ h

lemma int_str (n : ℤ) : int (str n) = some n := by
  have hs : stripSpace (str n) = str n := stripSpace_eq_self
    (fun c hc => not_isSpace_of_mem_str (mem_of_mem_head? hc))
    (fun c hc => not_isSpace_of_mem_str (mem_of_getLast? hc))
  rw [int, hs]
  cases n with
  | negSucc m => exact congrArg (Option.map fun n : ℕ => -(n : ℤ)) (readNat_toDigits (m + 1))
  | ofNat m =>
    -- no sign is a digit
    have hd : ∀ c ∈ str m, c.isDigit := fun _ => isDigit_of_mem_toDigits
    split
    · next heq => cases hd _ (heq ▸ mem_cons_self)
    · next heq => cases hd _ (heq ▸ mem_cons_self)
    · rw [str, readNat_toDigits]
      rfl

lemma str_injective : Function.Injective str := fun m n h =>
  Option.some.inj ((int_str m).symm.trans ((congrArg int h).trans (int_str n)))

end Dvt.Library
