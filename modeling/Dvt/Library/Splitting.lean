import Mathlib.Data.List.Infix

/-! Texts joined with a separator of several characters and split at it again. -/

namespace Dvt.Library

open List

variable {α : Type} [DecidableEq α]

/-- The pieces of `str.split`; the first characters, of a found separator, are skipped. -/
def pieces (sep : List α) : ℕ → List α → List (List α)
  | _, [] => [[]]
  | skip + 1, _ :: text => pieces sep skip text
  | 0, c :: text =>
    if sep <+: c :: text then [] :: pieces sep (sep.length - 1) text
    else (pieces sep 0 text).modifyHead (c :: ·)

/-- Before a separator, the part does not contain the separator sooner. -/
def Clear (sep part : List α) : Prop := ∀ rest ∈ part.tails, rest = [] ∨ ¬ sep <+: rest ++ sep

variable {sep part last : List α} {parts : List (List α)} {c : α} (text : List α)

instance : Decidable (Clear sep part) := inferInstanceAs (Decidable (∀ _ ∈ _, _))

omit [DecidableEq α] in
lemma clear_cons : Clear sep (c :: part) ↔ ¬ sep <+: c :: part ++ sep ∧ Clear sep part := by
  simp [Clear]

omit [DecidableEq α] in
lemma isPrefix_append_sep : sep <+: part ++ (sep ++ text) ↔ sep <+: part ++ sep := by
  have hl : part ++ sep <+: part ++ (sep ++ text) := ⟨text, by simp⟩
  exact ⟨fun h => prefix_of_prefix_length_le h hl (by simp), fun h => h.trans hl⟩

lemma pieces_skip (skipped : List α) :
    pieces sep skipped.length (skipped ++ text) = pieces sep 0 text := by
  induction skipped with
  | nil => rfl
  | cons c skipped ih => exact ih

lemma pieces_of_clear (h : Clear sep part) (hsep : sep ≠ []) :
    pieces sep 0 (part ++ (sep ++ text)) = part :: pieces sep 0 text := by
  induction part with
  | nil =>
    obtain ⟨c, rest, rfl⟩ := exists_cons_of_ne_nil hsep
    simp [pieces, pieces_skip]
  | cons c part ih =>
    obtain ⟨hs, h⟩ := clear_cons.mp h
    have hnot : ¬ sep <+: c :: (part ++ (sep ++ text)) := by
      rwa [← cons_append, isPrefix_append_sep]
    rw [cons_append, pieces, if_neg hnot, ih h, modifyHead_cons]

lemma clear_of_head? (h : (pieces sep 0 (part ++ (sep ++ text))).head? = some part) :
    Clear sep part := by
  induction part with
  | nil => simp [Clear]
  | cons c part ih =>
    rw [cons_append, pieces] at h
    split_ifs at h with hf
    · simp at h
    · refine clear_cons.mpr ⟨mt (isPrefix_append_sep text).mpr hf, ih ?_⟩
      simpa using h

lemma pieces_eq_singleton (h : ¬ sep <:+: part) : pieces sep 0 part = [part] := by
  induction part with
  | nil => rfl
  | cons c part ih =>
    rw [infix_cons_iff, not_or] at h
    rw [pieces, if_neg h.1, ih h.2, modifyHead_cons]

omit [DecidableEq α] in
lemma intercalate_cons_concat : sep.intercalate (part :: parts ++ [last]) =
    part ++ (sep ++ sep.intercalate (parts ++ [last])) := by
  cases parts <;> simp

lemma pieces_intercalate (h : ∀ part ∈ parts, Clear sep part) (hsep : sep ≠ [])
    (hl : ¬ sep <:+: last) :
    pieces sep 0 (sep.intercalate (parts ++ [last])) = parts ++ [last] := by
  induction parts with
  | nil => simp [pieces_eq_singleton hl]
  | cons part parts ih =>
    obtain ⟨hc, h⟩ := forall_mem_cons.mp h
    rw [intercalate_cons_concat, pieces_of_clear _ hc hsep, ih h, cons_append]

lemma clear_of_isPrefix (hsep : sep ≠ [])
    (h : parts <+: pieces sep 0 (sep.intercalate (parts ++ [last]))) :
    ∀ part ∈ parts, Clear sep part := by
  induction parts with
  | nil => simp
  | cons part parts ih =>
    rw [intercalate_cons_concat] at h
    have hc : Clear sep part := by
      obtain ⟨rest, hr⟩ := h
      exact clear_of_head? _ (congrArg head? hr).symm
    rw [pieces_of_clear _ hc hsep, cons_prefix_cons] at h
    exact forall_mem_cons.mpr ⟨hc, ih h.2⟩

end Dvt.Library
