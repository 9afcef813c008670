import Mathlib.Data.List.DropRight
import Mathlib.Data.List.Infix
import Mathlib.Data.List.Flatten

/-! Texts cut at a separator into segments, and paths made of segments. -/

namespace Dvt.Library

open List

variable {α : Type} [DecidableEq α] {sep : α} {c : α} {text : List α}

def strip (sep : α) (text : List α) : List α :=
  (text.dropWhile fun c => c = sep).rdropWhile fun c => c = sep

def segments (sep : α) (text : List α) : List (List α) := (text.splitOn sep).filter (· ≠ [])

def joinSegments (sep : α) (parts : List (List α)) : List α := [sep].intercalate parts

/-- `str.rsplit` at one separator; without one the first part is empty. -/
def splitLast (sep : α) (text : List α) : List α × List α :=
  ((text.rdropWhile fun c => c ≠ sep).dropLast, text.rtakeWhile fun c => c ≠ sep)

def IsSegment (sep : α) (part : List α) : Prop := part ≠ [] ∧ sep ∉ part

instance (sep : α) (part : List α) : Decidable (IsSegment sep part) :=
  inferInstanceAs (Decidable (_ ∧ _))

variable {part : List α}

lemma mem_splitOn (h : part ∈ text.splitOn sep) : ∀ c ∈ part, c ∈ text ∧ c ≠ sep := by
  induction text generalizing part with
  | nil =>
    rw [splitOn_nil, mem_singleton] at h
    simp [h]
  | cons c text ih =>
    rw [List.splitOn, splitOnP_cons_eq_if_modifyHead] at h
    split at h
    · rcases mem_cons.mp h with rfl | h
      · simp
      · exact fun d hd => ⟨mem_cons_of_mem c (ih h d hd).1, (ih h d hd).2⟩
    · next hc =>
      have hne := splitOn_ne_nil sep text
      rw [List.splitOn] at hne
      obtain ⟨first, rest, heq⟩ := exists_cons_of_ne_nil hne
      rw [heq] at h
      have hmem : ∀ q ∈ first :: rest, q ∈ text.splitOn sep := by
        intro q hq
        rwa [List.splitOn, heq]
      rcases mem_cons.mp h with rfl | h
      · intro d hd
        rcases mem_cons.mp hd with rfl | hd
        · exact ⟨mem_cons_self, by simpa using hc⟩
        · have hf := ih (hmem first mem_cons_self) d hd
          exact ⟨mem_cons_of_mem c hf.1, hf.2⟩
      · have hr := ih (hmem part (mem_cons_of_mem first h))
        exact fun d hd => ⟨mem_cons_of_mem c (hr d hd).1, (hr d hd).2⟩

lemma isSegment_of_mem_segments (h : part ∈ segments sep text) : IsSegment sep part := by
  obtain ⟨hmem, hne⟩ := mem_filter.mp h
  exact ⟨of_decide_eq_true hne, fun hsep => (mem_splitOn hmem sep hsep).2 rfl⟩

lemma splitOn_append_cons (text rest : List α) :
    (text ++ sep :: rest).splitOn sep = text.splitOn sep ++ rest.splitOn sep :=
  splitOnP_append_cons text rest (beq_self_eq_true sep)

lemma segments_append_cons (text rest : List α) :
    segments sep (text ++ sep :: rest) = segments sep text ++ segments sep rest := by
  rw [segments, splitOn_append_cons, filter_append]
  rfl

lemma segments_nil : segments sep ([] : List α) = [] := by simp [segments]

lemma segments_strip (text : List α) : segments sep (strip sep text) = segments sep text := by
  have hr : ∀ text : List α,
      segments sep (text.rdropWhile fun c => c = sep) = segments sep text := by
    intro text
    induction text using List.reverseRecOn with
    | nil => rfl
    | append_singleton text c ih =>
      rw [rdropWhile_concat]
      split
      · next hc =>
        obtain rfl := of_decide_eq_true hc
        rw [ih, segments_append_cons, segments_nil, append_nil]
      · rfl
  have hl : ∀ text : List α,
      segments sep (text.dropWhile fun c => c = sep) = segments sep text := by
    intro text
    induction text with
    | nil => rfl
    | cons c text ih =>
      rw [dropWhile_cons]
      split
      · next hc =>
        obtain rfl := of_decide_eq_true hc
        have hcons : segments c ([] ++ c :: text) = segments c [] ++ segments c text :=
          segments_append_cons [] text
        rw [nil_append, segments_nil, nil_append] at hcons
        rw [ih, hcons]
      · rfl
  rw [strip, hr, hl]

lemma mem_strip_of_ne (h : c ∈ text) (hne : c ≠ sep) : c ∈ strip sep text := by
  have hd : c ∈ text.dropWhile fun c => c = sep := by
    rw [← takeWhile_append_dropWhile (p := fun c => decide (c = sep)) (l := text), mem_append] at h
    refine h.resolve_left fun ht => hne ?_
    simpa using mem_takeWhile_imp ht
  rw [strip, List.rdropWhile, mem_reverse]
  rw [← mem_reverse,
    ← takeWhile_append_dropWhile (p := fun c => decide (c = sep)) (l := (_ : List α).reverse),
    mem_append] at hd
  refine hd.resolve_left fun ht => hne ?_
  simpa using mem_takeWhile_imp ht

section

variable {parts : List (List α)}

omit [DecidableEq α] in
lemma joinSegments_cons (part : List α) (h : parts ≠ []) :
    joinSegments sep (part :: parts) = part ++ sep :: joinSegments sep parts := by
  obtain ⟨next, rest, rfl⟩ := exists_cons_of_ne_nil h
  simp [joinSegments, List.intercalate]

omit [DecidableEq α] in
lemma joinSegments_append {rest : List (List α)} (hp : parts ≠ []) (hr : rest ≠ []) :
    joinSegments sep (parts ++ rest) = joinSegments sep parts ++ sep :: joinSegments sep rest := by
  induction parts with
  | nil => exact absurd rfl hp
  | cons part parts ih =>
    by_cases h : parts = []
    · subst h
      rw [singleton_append, joinSegments_cons part hr]
      simp [joinSegments, List.intercalate]
    · have hne : parts ++ rest ≠ [] := append_ne_nil_of_right_ne_nil parts hr
      rw [cons_append, joinSegments_cons part hne, ih h, joinSegments_cons part h,
        append_assoc, cons_append]

omit [DecidableEq α] in
lemma mem_joinSegments (hne : c ≠ sep) : c ∈ joinSegments sep parts ↔ ∃ part ∈ parts, c ∈ part := by
  induction parts with
  | nil => simp [joinSegments, List.intercalate]
  | cons part parts ih =>
    by_cases h : parts = []
    · simp [h, joinSegments, List.intercalate]
    · rw [joinSegments_cons part h, mem_append, mem_cons, ih]
      simp [hne]

omit [DecidableEq α] in
lemma joinSegments_replace {news : List (List α)} (hp : parts ≠ []) (hn : news ≠ [])
    (rest : List (List α)) :
    joinSegments sep (news ++ rest) = joinSegments sep news ++
      (joinSegments sep (parts ++ rest)).drop (joinSegments sep parts).length := by
  by_cases h : rest = []
  · simp [h]
  · rw [joinSegments_append hn h, joinSegments_append hp h, drop_left]

lemma splitOn_joinSegments (hne : parts ≠ [])
    (h : ∀ part ∈ parts, sep ∉ part) : (joinSegments sep parts).splitOn sep = parts :=
  splitOn_intercalate sep h hne

lemma splitOn_joinSegments_flatMap (h : parts ≠ []) :
    (joinSegments sep parts).splitOn sep = parts.flatMap (List.splitOn sep) := by
  induction parts with
  | nil => exact absurd rfl h
  | cons part parts ih =>
    by_cases hp : parts = []
    · simp [hp, joinSegments]
    · rw [joinSegments_cons _ hp, splitOn_append_cons, ih hp, flatMap_cons]

lemma splitOn_of_notMem (h : sep ∉ text) : text.splitOn sep = [text] := by
  simpa using splitOn_intercalate sep (forall_mem_singleton.mpr h) (cons_ne_nil text [])

lemma segments_joinSegments (h : ∀ part ∈ parts, IsSegment sep part) :
    segments sep (joinSegments sep parts) = parts := by
  by_cases hne : parts = []
  · subst hne
    simp [segments, joinSegments]
  · rw [segments, splitOn_joinSegments hne fun part hpart => (h part hpart).2]
    exact filter_eq_self.mpr fun part hpart => by simpa using (h part hpart).1

lemma isPrefix_joinSegments (hne : parts ≠ []) (h : ∀ part ∈ parts, sep ∉ part) :
    joinSegments sep parts = text ∨ text ++ [sep] <+: joinSegments sep parts ↔
      text.splitOn sep <+: parts := by
  constructor
  · rintro (rfl | ⟨rest, hr⟩)
    · rw [splitOn_joinSegments hne h]
    · rw [append_assoc, singleton_append] at hr
      refine ⟨rest.splitOn sep, ?_⟩
      rw [← splitOn_append_cons, hr, splitOn_joinSegments hne h]
  · rintro ⟨rest, rfl⟩
    have ht : joinSegments sep (text.splitOn sep) = text := intercalate_splitOn sep
    by_cases hr : rest = []
    · left
      rw [hr, append_nil, ht]
    · right
      refine ⟨joinSegments sep rest, ?_⟩
      rw [joinSegments_append (splitOn_ne_nil sep text) hr, ht, append_assoc, singleton_append]

lemma splitLast_joinSegments {last : List α} (h : IsSegment sep last) :
    splitLast sep (joinSegments sep (parts ++ [last])) = (joinSegments sep parts, last) := by
  have hall : ∀ c ∈ last, decide (c ≠ sep) = true := by
    intro c hc
    simpa using fun heq : c = sep => h.2 (heq ▸ hc)
  by_cases hp : parts = []
  · subst hp
    have hl : joinSegments sep ([] ++ [last]) = last := by simp [joinSegments]
    rw [hl, splitLast, rtakeWhile_eq_self_iff.mpr hall, rdropWhile_eq_nil_iff.mpr hall]
    simp [joinSegments]
  · have hsep : decide (sep ≠ sep) = false := by simp
    have ht : (joinSegments sep parts ++ sep :: last).rtakeWhile (fun c => decide (c ≠ sep)) =
        last := by
      rw [List.rtakeWhile, reverse_append, reverse_cons, append_assoc,
        singleton_append, takeWhile_append_of_pos (by simpa using hall),
        takeWhile_cons_of_neg (by simp), append_nil, reverse_reverse]
    have hd : (joinSegments sep parts ++ sep :: last).rdropWhile (fun c => decide (c ≠ sep)) =
        joinSegments sep parts ++ [sep] := by
      rw [List.rdropWhile, reverse_append, reverse_cons, append_assoc,
        singleton_append, dropWhile_append_of_pos (by simpa using hall),
        dropWhile_cons_of_neg (by simp), reverse_cons, reverse_reverse]
    rw [joinSegments_append hp (cons_ne_nil _ _)]
    have hl : joinSegments sep [last] = last := by simp [joinSegments]
    rw [hl, splitLast, ht, hd, dropLast_concat]

end

section

lemma strip_of_ends (hh : ∀ c ∈ text.head?, c ≠ sep)
    (hl : ∀ c ∈ text.getLast?, c ≠ sep) : strip sep text = text := by
  have hd : text.dropWhile (fun c => decide (c = sep)) = text := by
    cases text with
    | nil => rfl
    | cons c text => exact dropWhile_cons_of_neg (by simpa using hh c rfl)
  rw [strip, hd, rdropWhile_eq_self_iff]
  intro hne
  simpa using hl _ (List.getLast?_eq_getLast_of_ne_nil hne)

variable {parts : List (List α)}

omit [DecidableEq α] in
lemma head?_joinSegments (h : ∀ part ∈ parts, IsSegment sep part) :
    ∀ c ∈ (joinSegments sep parts).head?, c ≠ sep := by
  cases parts with
  | nil => simp [joinSegments, List.intercalate]
  | cons part parts =>
    obtain ⟨hne, hsep⟩ := h part mem_cons_self
    obtain ⟨c, part, rfl⟩ := exists_cons_of_ne_nil hne
    have hh : (joinSegments sep ((c :: part) :: parts)).head? = some c := by
      by_cases hp : parts = []
      · simp [hp, joinSegments, List.intercalate]
      · rw [joinSegments_cons _ hp]
        rfl
    rw [hh]
    rintro _ ⟨⟩ rfl
    exact hsep mem_cons_self

variable (h : ∀ part ∈ parts, IsSegment sep part)

include h

omit [DecidableEq α] in
lemma getLast?_joinSegments : ∀ c ∈ (joinSegments sep parts).getLast?, c ≠ sep := by
  induction parts with
  | nil => simp [joinSegments, List.intercalate]
  | cons part parts ih =>
    obtain ⟨hpart, hrest⟩ := forall_mem_cons.mp h
    by_cases hp : parts = []
    · intro c hc heq
      rw [hp] at hc
      have hmem : c ∈ part := by
        simpa [joinSegments, List.intercalate] using mem_of_mem_getLast? hc
      exact hpart.2 (heq ▸ hmem)
    · rw [joinSegments_cons _ hp]
      intro c hc
      have hj : joinSegments sep parts ≠ [] := by
        obtain ⟨next, rest, rfl⟩ := exists_cons_of_ne_nil hp
        have hn := (hrest next mem_cons_self).1
        intro hnil
        by_cases hr : rest = []
        · simp [hr, joinSegments, List.intercalate, hn] at hnil
        · simp [joinSegments_cons _ hr] at hnil
      rw [List.getLast?_append_of_ne_nil _ (cons_ne_nil _ _), List.getLast?_cons_of_ne_nil hj] at hc
      exact ih hrest c hc

lemma strip_joinSegments : strip sep (joinSegments sep parts) = joinSegments sep parts :=
  strip_of_ends (head?_joinSegments h) (getLast?_joinSegments h)

end

omit [DecidableEq α] in
lemma cons_eq_concat_iff {x y : α} {xs : List α} :
    x :: xs = xs ++ [y] ↔ ∀ z ∈ xs ++ [y], z = x := by
  induction xs generalizing x with
  | nil => simp [eq_comm]
  | cons a xs ih =>
    rw [cons_append, cons.injEq, ih, forall_mem_cons]
    constructor <;> (rintro ⟨rfl, h⟩; exact ⟨rfl, h⟩)

end Dvt.Library
