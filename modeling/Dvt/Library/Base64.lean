import Mathlib.Data.List.DropRight

/-! Base64 in its URL-safe alphabet, written in full groups and read leniently. -/

namespace Dvt.Library.Base64

open List

def alphabet : List Char := "ABCDEFGHIJKLMNOPQRSTUVWXYZabcdefghijklmnopqrstuvwxyz0123456789-_".toList

def digit (n : ℕ) : Char := alphabet.getD (n % 64) 'A'

def digits : List UInt8 → List Char
  | [] => []
  | [a] => [digit (a.toNat / 4), digit (a.toNat % 4 * 16)]
  | [a, b] => [digit (a.toNat / 4), digit (a.toNat % 4 * 16 + b.toNat / 16), digit (b.toNat % 16 * 4)]
  | a :: b :: c :: bytes =>
    digit (a.toNat / 4) :: digit (a.toNat % 4 * 16 + b.toNat / 16) ::
      digit (b.toNat % 16 * 4 + c.toNat / 64) :: digit (c.toNat % 64) :: digits bytes

def pad (text : List Char) : List Char := text ++ replicate ((4 - text.length % 4) % 4) '='

def encode (bytes : List UInt8) : List Char := pad (digits bytes)

/-- The standard alphabet is read as well. -/
def value? (c : Char) : Option ℕ :=
  if c = '+' then some 62 else if c = '/' then some 63 else alphabet.idxOf? c

/-- `place` is the place in the group of four and `left` what is left of the bits read there; other
characters than digits are skipped. -/
def read (place left pads : ℕ) : List Char → Option (List UInt8)
  | [] => if place = 0 then some [] else none
  | c :: text =>
    if c = '=' then
      if 2 ≤ place ∧ 4 ≤ place + (pads + 1) then some []
      else read place left (if 2 ≤ place then pads + 1 else pads) text
    else match value? c with
      | none => read place left pads text
      | some n => match place with
        | 0 => read 1 n 0 text
        | 1 => (read 2 (n % 16) 0 text).map (UInt8.ofNat (left * 4 + n / 16) :: ·)
        | 2 => (read 3 (n % 4) 0 text).map (UInt8.ofNat (left * 16 + n / 4) :: ·)
        | _ => (read 0 0 0 text).map (UInt8.ofNat (left * 64 + n) :: ·)

def decode (text : List Char) : Option (List UInt8) :=
  if text.all fun c => c.toNat < 128 then read 0 0 0 text else none

lemma digit_spec (n : ℕ) :
    value? (digit n) = some (n % 64) ∧ digit n ≠ '=' ∧ (digit n).toNat < 128 := by
  have hall : ∀ n : Fin 64, value? (alphabet.getD n 'A') = some n.val ∧
      alphabet.getD n 'A' ≠ '=' ∧ (alphabet.getD n 'A').toNat < 128 := by decide +kernel
  exact hall ⟨n % 64, Nat.mod_lt _ (by decide)⟩

lemma read_digit (n place left pads : ℕ) (text : List Char) :
    read place left pads (digit n :: text) = match place with
      | 0 => read 1 (n % 64) 0 text
      | 1 => (read 2 (n % 64 % 16) 0 text).map (UInt8.ofNat (left * 4 + n % 64 / 16) :: ·)
      | 2 => (read 3 (n % 64 % 4) 0 text).map (UInt8.ofNat (left * 16 + n % 64 / 4) :: ·)
      | _ => (read 0 0 0 text).map (UInt8.ofNat (left * 64 + n % 64) :: ·) := by
  obtain ⟨hv, hne, -⟩ := digit_spec n
  rw [read, if_neg hne, hv]

variable {bytes : List UInt8}

lemma exists_of_mem_digits {c : Char} (h : c ∈ digits bytes) : ∃ n, c = digit n := by
  fun_induction digits bytes <;> grind

lemma ofNat_eq {m : ℕ} {a : UInt8} (h : m = a.toNat) : UInt8.ofNat m = a := by
  rw [h, UInt8.ofNat_toNat]

lemma read_encode (bytes : List UInt8) : read 0 0 0 (encode bytes) = some bytes := by
  rw [encode]
  fun_induction digits bytes with
  | case1 => rfl
  | case2 a =>
    have ha := a.toNat_lt
    change read 0 0 0 (digit _ :: digit _ :: ['=', '=']) = _
    simp only [read_digit]
    rw [ofNat_eq (a := a) (by omega)]
    simp [read]
  | case3 a b =>
    have ha := a.toNat_lt
    have hb := b.toNat_lt
    change read 0 0 0 (digit _ :: digit _ :: digit _ :: ['=']) = _
    simp only [read_digit]
    rw [ofNat_eq (a := a) (by omega), ofNat_eq (a := b) (by omega)]
    simp [read]
  | case4 a b c bytes ih =>
    have ha := a.toNat_lt
    have hb := b.toNat_lt
    have hc := c.toNat_lt
    have hpad : ∀ p q r s text, pad (p :: q :: r :: s :: text) = p :: q :: r :: s :: pad text := by
      intro p q r s text
      have hlen : (p :: q :: r :: s :: text).length % 4 = text.length % 4 :=
        Nat.add_mod_right text.length 4
      rw [pad, hlen]
      rfl
    simp only [hpad, read_digit, ih, Option.map_some]
    rw [ofNat_eq (a := a) (by omega), ofNat_eq (a := b) (by omega), ofNat_eq (a := c) (by omega)]

lemma decode_encode (bytes : List UInt8) : decode (encode bytes) = some bytes := by
  rw [decode, if_pos, read_encode]
  refine all_eq_true.mpr fun c hc => decide_eq_true ?_
  rcases mem_append.mp hc with hc | hc
  · obtain ⟨n, rfl⟩ := exists_of_mem_digits hc
    exact (digit_spec n).2.2
  · rw [eq_of_mem_replicate hc]
    decide

/-- Padding that was cut off is put back. -/
lemma pad_strip_encode (bytes : List UInt8) :
    pad ((encode bytes).rdropWhile (· = '=')) = encode bytes := by
  have hcut : ∀ k, (digits bytes ++ replicate k '=').rdropWhile (· = '=') = digits bytes := by
    intro k
    induction k with
    | zero =>
      rw [replicate_zero, append_nil, rdropWhile_eq_self_iff]
      intro hne heq
      obtain ⟨n, hn⟩ := exists_of_mem_digits (getLast_mem hne)
      exact (digit_spec n).2.1 (hn ▸ of_decide_eq_true heq)
    | succ k ih =>
      rw [replicate_succ', ← append_assoc, rdropWhile_concat_pos _ _ _ (by simp), ih]
  rw [encode]
  exact congrArg pad (hcut _)

end Dvt.Library.Base64
