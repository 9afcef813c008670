import Dvt.Library.Dict
import Dvt.Library.Lines

/-! The values of an env file: how they are read and updated. -/

namespace Dvt.Installation

open Library List Dict

abbrev Text := List Char

def definition (line : Text) : Option (Text × Text) :=
  let stripped := stripSpace line
  if stripped = [] ∨ stripped.head? = some '#' ∨ '=' ∉ stripped then none
  else some (stripSpace (stripped.takeWhile (· ≠ '=')),
    stripSpace (stripped.dropWhile (· ≠ '=')).tail)

def parseEnvLines (lines : List Text) : Dict Text Text :=
  (lines.filterMap definition).foldl (fun result entry => result.set entry.1 entry.2) .empty

def parseEnvFile (content : Text) : Dict Text Text := parseEnvLines (splitlines false content)

def render (key value : Text) : Text := key ++ '=' :: value

def updateLines : List Text → Dict Text Text → List Text
  | [], remaining => remaining.entries.map fun entry => render entry.1 entry.2
  | line :: lines, remaining =>
    match definition line with
    | none => line :: updateLines lines remaining
    | some (key, _) => match remaining.get? key with
      | none => line :: updateLines lines remaining
      | some value => render key value :: updateLines lines (remaining.erase key)

def updateEnvValues (content : Text) (values : Dict Text Text) : Text :=
  ['\n'].intercalate (updateLines (splitlines false content) values) ++ ['\n']

structure Writable (key value : Text) : Prop where
  ne_nil : key ≠ []
  noEquals : '=' ∉ key
  noSpace : ∀ c ∈ key, ¬ isSpace c
  noHash : key.head? ≠ some '#'
  noBreak : ∀ c ∈ value, ¬ isLineBreak c
  stripped : stripSpace value = value

abbrev Settable (values : Dict Text Text) : Prop :=
  ∀ entry ∈ values.entries, Writable entry.1 entry.2

def valueOf (key line : Text) : Option Text :=
  (definition line).bind fun entry => if entry.1 = key then some entry.2 else none

def definitions (key : Text) (lines : List Text) : List Text := lines.filterMap (valueOf key)

variable {key value line content : Text} {lines : List Text} {values : Dict Text Text}

lemma Writable.definition_render (h : Writable key value) :
    definition (render key value) = some (key, value) := by
  obtain ⟨c, rest, rfl⟩ := exists_cons_of_ne_nil h.ne_nil
  have hkey : stripSpace (c :: rest) = c :: rest :=
    stripSpace_eq_self (by simpa using h.noSpace c mem_cons_self)
      fun d hd => h.noSpace d (mem_of_getLast? hd)
  have hline : stripSpace (render (c :: rest) value) = render (c :: rest) value := by
    refine stripSpace_eq_self (by simpa [render] using h.noSpace c mem_cons_self) fun d hd => ?_
    rw [render, getLast?_append_of_ne_nil _ (cons_ne_nil _ _), getLast?_cons] at hd
    cases hl : value.getLast? with
    | none =>
      simp only [hl, Option.getD_none, Option.mem_some_iff] at hd
      exact hd ▸ by decide
    | some last =>
      simp only [hl, Option.getD_some, Option.mem_some_iff] at hd
      exact hd ▸ not_isSpace_getLast value last (h.stripped.symm ▸ hl)
  have he : ∀ d ∈ c :: rest, decide (d ≠ '=') = true :=
    fun d hd => decide_eq_true fun heq => h.noEquals (heq ▸ hd)
  have hh : c ≠ '#' := fun hc => h.noHash (by simp [hc])
  rw [definition, hline, render, takeWhile_append_of_pos he, dropWhile_append_of_pos he]
  simp [hkey, h.stripped, hh]

lemma Writable.noBreak_render (h : Writable key value) :
    ∀ c ∈ render key value, ¬ isLineBreak c := by
  intro c hc
  obtain hc | hc := mem_append.mp hc
  · exact fun hbreak => h.noSpace c hc (isSpace_of_isLineBreak hbreak)
  · obtain rfl | hc := mem_cons.mp hc
    · decide
    · exact h.noBreak c hc

lemma get?_parseEnvLines : (parseEnvLines lines).get? key = (definitions key lines).getLast? := by
  induction lines using reverseRecOn with
  | nil => rfl
  | append_singleton lines line ih =>
    rw [parseEnvLines] at ih
    cases h : definition line with
    | none => simpa [parseEnvLines, definitions, valueOf, h] using ih
    | some entry =>
      by_cases hkey : key = entry.1
      · simp [parseEnvLines, definitions, valueOf, h, hkey, get?_set]
      · simpa [parseEnvLines, definitions, valueOf, h, hkey, Ne.symm hkey, get?_set] using ih

lemma definitions_render (h : Settable values) :
    definitions key (values.entries.map fun entry => render entry.1 entry.2) =
      (values.get? key).toList := by
  obtain ⟨entries, hn⟩ := values
  induction entries with
  | nil => rfl
  | cons entry entries ih =>
    obtain ⟨hnm, hn'⟩ := nodup_cons.mp hn
    obtain ⟨hentry, h⟩ := forall_mem_cons.mp h
    have hr := ih hn' h
    rw [definitions] at hr
    rw [get?_cons, definitions, map_cons, filterMap_cons, hr, valueOf,
      hentry.definition_render]
    by_cases hkey : entry.1 = key
    · have hnone : (⟨entries, hn'⟩ : Dict Text Text).get? key = none :=
        get?_eq_none.mpr (hkey ▸ hnm)
      simp [hkey, hnone]
    · simp [hkey]

lemma Settable.erase (h : Settable values) (key : Text) : Settable (values.erase key) :=
  fun entry hentry => h entry (mem_filter.mp hentry).1

lemma definitions_updateLines (h : Settable values) :
    definitions key (updateLines lines values) = match values.get? key with
      | none => definitions key lines
      | some value => value :: (definitions key lines).tail := by
  induction lines generalizing values with
  | nil =>
    rw [updateLines, definitions_render h]
    cases values.get? key <;> rfl
  | cons line lines ih =>
    simp only [definitions] at ih ⊢
    rw [updateLines]
    split
    · next hn => simpa [valueOf, hn] using ih h
    · next other old hs =>
      split
      · next hget =>
        by_cases hkey : other = key
        · subst hkey
          simpa [valueOf, hs, hget] using ih h
        · simpa [valueOf, hs, hkey] using ih h
      · next value hget =>
        have hvalue := (h _ (get?_eq_some.mp hget)).definition_render
        have hr := ih (h.erase other)
        rw [get?_erase] at hr
        by_cases hkey : key = other
        · subst hkey
          simpa [valueOf, hs, hvalue, hget] using hr
        · simpa [valueOf, hs, hvalue, hkey, Ne.symm hkey] using hr

lemma noBreak_updateLines (h : Settable values) (hl : ∀ line ∈ lines, ∀ c ∈ line, ¬ isLineBreak c) :
    ∀ line ∈ updateLines lines values, ∀ c ∈ line, ¬ isLineBreak c := by
  induction lines generalizing values with
  | nil =>
    rw [updateLines, forall_mem_map]
    exact fun entry hentry => (h entry hentry).noBreak_render
  | cons line lines ih =>
    obtain ⟨hline, hl⟩ := forall_mem_cons.mp hl
    rw [updateLines]
    split
    · exact forall_mem_cons.mpr ⟨hline, ih h hl⟩
    · split
      · exact forall_mem_cons.mpr ⟨hline, ih h hl⟩
      · next hget =>
        exact forall_mem_cons.mpr ⟨(h _ (get?_eq_some.mp hget)).noBreak_render,
          ih (h.erase _) hl⟩

def Foreign (values : Dict Text Text) (line : Text) : Prop :=
  ∀ entry ∈ definition line, entry.1 ∉ values.keys

instance : DecidablePred (Foreign values) := fun line =>
  inferInstanceAs (Decidable (∀ entry ∈ definition line, _))

lemma foreign_sublist (lines : List Text) {remaining : Dict Text Text} (h : remaining.keys ⊆ values.keys) :
    lines.filter (Foreign values ·) <+ updateLines lines remaining := by
  induction lines generalizing remaining with
  | nil => simp
  | cons line lines ih =>
    have hk : (line :: lines).filter (Foreign values ·) <+ line :: updateLines lines remaining := by
      rw [filter_cons]
      split
      · exact (ih h).cons_cons line
      · exact (ih h).cons line
    rw [updateLines]
    split
    · exact hk
    · next key _ hs =>
      split
      · exact hk
      · next value hget =>
        have hkey : key ∈ values.keys := h (mem_keys.mpr ⟨value, hget⟩)
        have he : (remaining.erase key).keys ⊆ remaining.keys := (filter_sublist.map _).subset
        rw [filter_cons_of_neg (by simp [Foreign, hs, hkey])]
        exact (ih (Subset.trans he h)).cons _

lemma splitlines_updateEnvValues (h : Settable values) :
    splitlines false (updateEnvValues content values) =
      match updateLines (splitlines false content) values with
      | [] => [[]]
      | lines => lines := by
  have hbreak : ∀ line ∈ updateLines (splitlines false content) values, _ :=
    noBreak_updateLines h fun _ => not_isLineBreak_of_mem false
  rw [updateEnvValues]
  split
  · next hnil => simp [hnil, splitlines, show isLineBreak '\n' = true by decide]
  · next hne => exact splitlines_join hbreak hne

structure Updated (content : Text) (values : Dict Text Text) (updated : Text) : Prop where
  read : ∀ key, (parseEnvFile updated).get? key =
    (values.get? key).or ((parseEnvFile content).get? key)
  kept : (splitlines false content).filter (Foreign values ·) <+ splitlines false updated

theorem updated_iff (h : Settable values) :
    Updated content values (updateEnvValues content values) ↔
      ∀ key value, values.get? key = some value →
        ∀ last ∈ (definitions key (splitlines false content)).tail.getLast?, last = value := by
  have hread : ∀ key, (parseEnvFile (updateEnvValues content values)).get? key =
      (definitions key (updateLines (splitlines false content) values)).getLast? := by
    intro key
    rw [parseEnvFile, get?_parseEnvLines, splitlines_updateEnvValues h]
    split
    · next hnil => simp [hnil, definitions, valueOf, definition, stripSpace]
    · rfl
  have hkept : (splitlines false content).filter (Foreign values ·) <+
      splitlines false (updateEnvValues content values) := by
    have hsublist := foreign_sublist (splitlines false content) (Subset.refl values.keys)
    rw [splitlines_updateEnvValues h]
    split
    · next hnil =>
      rw [hnil] at hsublist
      exact hsublist.trans (nil_sublist _)
    · exact hsublist
  have hlast : ∀ key, (parseEnvFile content).get? key =
      (definitions key (splitlines false content)).getLast? := fun key => get?_parseEnvLines
  constructor
  · intro hupdated key value hvalue last hmem
    have hkey := hupdated.read key
    rw [hread, definitions_updateLines h, hvalue] at hkey
    simp_all [getLast?_cons]
  · refine fun hcond => ⟨fun key => ?_, hkept⟩
    rw [hread, hlast, definitions_updateLines h]
    cases hvalue : values.get? key with
    | none => simp
    | some value =>
      have hmem := hcond key value hvalue
      cases htail : (definitions key (splitlines false content)).tail.getLast? with
      | none => simp [getLast?_cons, htail]
      | some last => simp [getLast?_cons, htail, hmem last htail]

def portValue : Dict Text Text := ⟨[("PORT".toList, "8001".toList)], by decide⟩

lemma settable_portValue : Settable portValue :=
  forall_mem_singleton.mpr ⟨by decide, by decide, by simp [isSpace], by decide,
    by simp [isLineBreak], by decide +kernel⟩

theorem updated_sampleFile : Updated "HOST=ui\n# PORT=1\nPORT=80\n".toList portValue
    (updateEnvValues "HOST=ui\n# PORT=1\nPORT=80\n".toList portValue) := by
  refine (updated_iff settable_portValue).mpr fun key value hvalue => ?_
  obtain ⟨rfl, rfl⟩ : key = "PORT".toList ∧ value = "8001".toList := by
    simpa [portValue, Prod.ext_iff] using get?_eq_some.mp hvalue
  decide +kernel

theorem not_updated_repeatedKey :
    Settable portValue ∧ ¬ Updated "PORT=80\nPORT=81\n".toList portValue
      (updateEnvValues "PORT=80\nPORT=81\n".toList portValue) :=
  ⟨settable_portValue, fun h => absurd (h.read "PORT".toList) (by decide +kernel)⟩

end Dvt.Installation
