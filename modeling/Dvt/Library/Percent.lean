import Mathlib.Data.Fintype.Basic

/-! Percent-encoding that keeps the unreserved characters. -/

namespace Dvt.Library

open List

def isUnreserved (b : UInt8) : Bool :=
  (65 ≤ b.toNat && b.toNat ≤ 90) || (97 ≤ b.toNat && b.toNat ≤ 122) || (48 ≤ b.toNat && b.toNat ≤ 57) ||
    b.toNat == 95 || b.toNat == 46 || b.toNat == 45 || b.toNat == 126

def hexDigit (n : ℕ) : Char := Char.ofNat (if n < 10 then 48 + n else 55 + n)

def percentByte (b : UInt8) : List Char :=
  if isUnreserved b then [Char.ofNat b.toNat] else ['%', hexDigit (b.toNat / 16), hexDigit (b.toNat % 16)]

def percentEncode (bytes : List UInt8) : List Char := bytes.flatMap percentByte

def quote (text : String) : List Char := percentEncode text.toUTF8.data.toList

variable {n : ℕ}

lemma toNat_ofNat_of_lt (h : n < 256) : (Char.ofNat n).toNat = n := by
  have hv : n.isValidChar := .inl (by omega)
  rw [Char.ofNat, dif_pos hv]
  rfl

lemma toNat_hexDigit (h : n < 16) : (hexDigit n).toNat = if n < 10 then 48 + n else 55 + n := by
  rw [hexDigit, toNat_ofNat_of_lt]
  split <;> omega

lemma hexDigit_inj {m : ℕ} (hm : m < 16) (hn : n < 16) (h : hexDigit m = hexDigit n) : m = n := by
  have hnat := congrArg Char.toNat h
  rw [toNat_hexDigit hm, toNat_hexDigit hn] at hnat
  split at hnat <;> split at hnat <;> omega

lemma ofNat_ne_percent {b : UInt8} (h : isUnreserved b = true) : Char.ofNat b.toNat ≠ '%' := by
  intro heq
  have hnat := congrArg Char.toNat heq
  rw [toNat_ofNat_of_lt b.toNat_lt] at hnat
  rw [isUnreserved, hnat] at h
  exact nomatch h

lemma percentByte_append_inj {b c : UInt8} {xs ys : List Char}
    (h : percentByte b ++ xs = percentByte c ++ ys) : b = c ∧ xs = ys := by
  have hb := b.toNat_lt
  have hc := c.toNat_lt
  rw [percentByte, percentByte] at h
  split at h
  · next hub =>
    split at h
    · obtain ⟨hh, ht⟩ := List.cons.inj h
      have hnat := congrArg Char.toNat hh
      rw [toNat_ofNat_of_lt hb, toNat_ofNat_of_lt hc] at hnat
      exact ⟨UInt8.toNat_inj.mp hnat, ht⟩
    · exact absurd (List.cons.inj h).1 (ofNat_ne_percent hub)
  · split at h
    · next huc => exact absurd (List.cons.inj h).1.symm (ofNat_ne_percent huc)
    · obtain ⟨-, h⟩ := List.cons.inj h
      obtain ⟨hhigh, h⟩ := List.cons.inj h
      obtain ⟨hlow, ht⟩ := List.cons.inj h
      have hdiv := hexDigit_inj (by omega) (by omega) hhigh
      have hmod := hexDigit_inj (by omega) (by omega) hlow
      exact ⟨UInt8.toNat_inj.mp (by omega), ht⟩

lemma percentByte_ne_nil (b : UInt8) : percentByte b ≠ [] := by
  rw [percentByte]
  split <;> exact nofun

lemma percentEncode_injective : Function.Injective percentEncode := by
  intro bs
  induction bs with
  | nil =>
    intro cs h
    cases cs with
    | nil => rfl
    | cons c cs => exact absurd (append_eq_nil_iff.mp h.symm).1 (percentByte_ne_nil c)
  | cons b bs ih =>
    intro cs h
    cases cs with
    | nil => exact absurd (append_eq_nil_iff.mp h).1 (percentByte_ne_nil b)
    | cons c cs =>
      obtain ⟨rfl, ht⟩ := percentByte_append_inj h
      rw [ih ht]

lemma quote_injective : Function.Injective quote := by
  intro a b h
  have hb : a.toUTF8.data = b.toUTF8.data := Array.toList_inj.mp (percentEncode_injective h)
  exact String.toByteArray_inj.mp (congrArg ByteArray.mk hb)

lemma slash_notMem_percentByte (b : UInt8) : '/' ∉ percentByte b := by
  have hb := b.toNat_lt
  have hhex : ∀ n < 16, '/' ≠ hexDigit n := by
    intro n hn heq
    have hnat := congrArg Char.toNat heq
    rw [toNat_hexDigit hn] at hnat
    split at hnat <;> simp at hnat <;> omega
  rw [percentByte]
  split
  · next hu =>
    intro hmem
    have hnat := congrArg Char.toNat (mem_singleton.mp hmem)
    rw [toNat_ofNat_of_lt hb] at hnat
    rw [isUnreserved, ← hnat] at hu
    exact nomatch hu
  · simp only [mem_cons, not_mem_nil, or_false, not_or]
    exact ⟨by decide, hhex _ (by omega), hhex _ (by omega)⟩

end Dvt.Library
