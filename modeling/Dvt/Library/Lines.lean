import Mathlib.Data.List.DropRight

/-! White space and lines, as the methods of strings see them. -/

namespace Dvt.Library

open List

def isSpace (c : Char) : Bool :=
  c.toNat ∈ [0x20, 0x85, 0xa0, 0x1680, 0x2028, 0x2029, 0x202f, 0x205f, 0x3000] ∨
    (0x09 ≤ c.toNat ∧ c.toNat ≤ 0x0d) ∨ (0x1c ≤ c.toNat ∧ c.toNat ≤ 0x1f) ∨
    (0x2000 ≤ c.toNat ∧ c.toNat ≤ 0x200a)

def isLineBreak (c : Char) : Bool :=
  c.toNat ∈ [0x85, 0x2028, 0x2029] ∨ (0x0a ≤ c.toNat ∧ c.toNat ≤ 0x0d) ∨
    (0x1c ≤ c.toNat ∧ c.toNat ≤ 0x1e)

def stripSpace (text : List Char) : List Char := (text.dropWhile isSpace).rdropWhile isSpace

/-- A line feed right after a carriage return belongs to the same boundary. -/
def splitlines : Bool → List Char → List (List Char)
  | _, [] => []
  | afterReturn, c :: text =>
    if afterReturn ∧ c = '\n' then splitlines false text
    else if isLineBreak c then [] :: splitlines (c = '\r') text
    else match splitlines false text with
      | [] => [[c]]
      | line :: lines => (c :: line) :: lines

variable {c : Char} {text line : List Char} {lines : List (List Char)}

lemma isSpace_of_isLineBreak (h : isLineBreak c) : isSpace c := by
  simp only [isSpace, isLineBreak, decide_eq_true_eq, mem_cons, not_mem_nil, or_false] at h ⊢
  omega

lemma not_isLineBreak_of_mem (b : Bool) (h : line ∈ splitlines b text) :
    ∀ c ∈ line, ¬ isLineBreak c := by
  induction text generalizing b line with
  | nil => cases h
  | cons d text ih =>
    rw [splitlines] at h
    split_ifs at h with hf hbreak
    · exact ih _ h
    · obtain rfl | h := mem_cons.mp h
      · simp
      · exact ih _ h
    · cases hl : splitlines false text with
      | nil => simp_all
      | cons first lines =>
        rw [hl] at h
        obtain rfl | h := mem_cons.mp h
        · simpa [hbreak] using ih false (hl ▸ mem_cons_self)
        · exact ih false (hl ▸ mem_cons_of_mem _ h)

lemma splitlines_append (b : Bool) (h : ∀ c ∈ line, ¬ isLineBreak c) (text : List Char) :
    splitlines b (line ++ '\n' :: text) =
      if b ∧ line = [] then splitlines false text else line :: splitlines false text := by
  induction line generalizing b with
  | nil =>
    cases b
    · simp [splitlines, show isLineBreak '\n' = true by decide]
    · simp [splitlines]
  | cons c line ih =>
    obtain ⟨hc, h⟩ := forall_mem_cons.mp h
    have hf : c ≠ '\n' := by
      rintro rfl
      exact hc (by decide)
    simp [splitlines, hc, hf, ih false h]

lemma splitlines_join (h : ∀ line ∈ lines, ∀ c ∈ line, ¬ isLineBreak c) (hne : lines ≠ []) :
    splitlines false (['\n'].intercalate lines ++ ['\n']) = lines := by
  induction lines with
  | nil => exact absurd rfl hne
  | cons line lines ih =>
    obtain ⟨hl, h⟩ := forall_mem_cons.mp h
    cases lines with
    | nil => simp [splitlines_append false hl, splitlines]
    | cons next lines =>
      have ht : ['\n'].intercalate (line :: next :: lines) ++ ['\n'] =
          line ++ '\n' :: (['\n'].intercalate (next :: lines) ++ ['\n']) := by simp
      rw [ht, splitlines_append false hl, ih h (by simp)]
      simp

lemma stripSpace_eq_self (hh : ∀ c ∈ text.head?, ¬ isSpace c) (hl : ∀ c ∈ text.getLast?, ¬ isSpace c) :
    stripSpace text = text := by
  have hleft : text.dropWhile isSpace = text := by
    cases text with
    | nil => rfl
    | cons c text => simp_all
  rw [stripSpace, hleft, rdropWhile_eq_self_iff]
  exact fun hne => hl _ (getLast?_eq_getLast_of_ne_nil hne)

lemma not_isSpace_getLast (text : List Char) : ∀ c ∈ (stripSpace text).getLast?, ¬ isSpace c := by
  intro c hc
  have hne : stripSpace text ≠ [] := by
    intro h
    simp [h] at hc
  rw [getLast?_eq_getLast_of_ne_nil hne, Option.mem_some_iff] at hc
  exact hc ▸ rdropWhile_last_not _ _ hne

end Dvt.Library
