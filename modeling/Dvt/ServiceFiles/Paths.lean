import Dvt.Projects.Files

/-! The paths of the service files, as the client reads and writes them. -/

namespace Dvt.ServiceFiles

open Library List
open Projects (Text IsPart pathParts)

inductive Raised
  | value (message : String)
  | notADirectory (path : Text)
  | fileExists (path : Text)
  | fileNotFound (path : Text)
  | os (message : String)
  | database
  deriving DecidableEq, Repr

def isReserved (part : Text) : Bool := part = ['.'] || part = ['.', '.']

def normalizePath : Option Text → Except Raised Text
  | none => .ok []
  | some value =>
    let normalized := strip '/' (value.map fun c => if c = '\\' then '/' else c)
    if normalized = [] then .ok []
    else
      let parts := segments '/' normalized
      if parts.any isReserved then .error (.value "Path traversal is not allowed.")
      else .ok (joinSegments '/' parts)

def joinPath (parts : List (Option Text)) : Except Raised Text := do
  let normalized ← parts.mapM normalizePath
  return joinSegments '/' (normalized.filter (· ≠ []))

def splitPath (path : Text) : Except Raised (Text × Text) := do
  let normalized ← normalizePath (some path)
  if normalized = [] then throw (.value "Path does not reference a file.")
  if '/' ∉ normalized then return ([], normalized)
  return splitLast '/' normalized

def IsName (part : Text) : Prop := IsPart part ∧ ¬ isReserved part = true

instance (part : Text) : Decidable (IsName part) := inferInstanceAs (Decidable (_ ∧ _))

def partsOf (path : Option Text) : List Text := path.elim [] pathParts

variable {path : Option Text} {text : Text} {parts : List Text}

lemma isPart_of_mem_partsOf {part : Text} (h : part ∈ partsOf path) : IsPart part := by
  cases path with
  | none => cases h
  | some path => exact Projects.isPart_of_mem_pathParts h

lemma pathParts_eq_segments_strip (value : Text) : pathParts value =
    segments '/' (strip '/' (value.map fun c => if c = '\\' then '/' else c)) := by
  rw [segments_strip, pathParts]

lemma normalizePath_eq (path : Option Text) : normalizePath path =
    if (partsOf path).any isReserved then .error (.value "Path traversal is not allowed.")
    else .ok (joinSegments '/' (partsOf path)) := by
  cases path with
  | none => rfl
  | some value =>
    rw [normalizePath, partsOf, Option.elim_some, pathParts_eq_segments_strip]
    split
    · next hnil =>
      rw [hnil]
      rfl
    · rfl

lemma normalizePath_eq_ok : normalizePath path = .ok text ↔
    (∀ part ∈ partsOf path, IsName part) ∧ text = joinSegments '/' (partsOf path) := by
  rw [normalizePath_eq]
  split
  · next hany =>
    obtain ⟨part, hpart, hres⟩ := any_eq_true.mp hany
    constructor
    · rintro ⟨⟩
    · rintro ⟨hn, -⟩
      exact absurd hres (hn part hpart).2
  · next hany =>
    have hn : ∀ part ∈ partsOf path, IsName part := fun part hpart =>
      ⟨isPart_of_mem_partsOf hpart, fun hres => hany (any_eq_true.mpr ⟨part, hpart, hres⟩)⟩
    exact ⟨fun h => ⟨hn, (Except.ok.inj h).symm⟩, fun h => congrArg _ h.2.symm⟩

lemma partsOf_join (h : ∀ part ∈ parts, IsPart part) :
    partsOf (some (joinSegments '/' parts)) = parts := Projects.pathParts_joinSegments h

lemma joinSegments_eq_nil (h : ∀ part ∈ parts, IsSegment '/' part) :
    joinSegments '/' parts = [] ↔ parts = [] := by
  refine ⟨fun hnil => ?_, fun hnil => hnil ▸ rfl⟩
  rw [← segments_joinSegments h, hnil, segments_nil]

lemma joinSegments_flatten {paths : List (List Text)}
    (h : ∀ parts ∈ paths, ∀ part ∈ parts, IsSegment '/' part) :
    joinSegments '/' ((paths.map (joinSegments '/')).filter (· ≠ [])) =
      joinSegments '/' paths.flatten := by
  induction paths with
  | nil => rfl
  | cons parts paths ih =>
    obtain ⟨hp, hr⟩ := forall_mem_cons.mp h
    rw [map_cons, flatten_cons, filter_cons]
    by_cases hnil : parts = []
    · rw [hnil, if_neg (by simp [joinSegments]), nil_append, ih hr]
    · have hj := (joinSegments_eq_nil hp).not.mpr hnil
      rw [if_pos (by simpa using hj)]
      by_cases hflat : paths.flatten = []
      · have hf : (paths.map (joinSegments '/')).filter (· ≠ []) = [] := by
          rw [filter_eq_nil_iff]
          intro text ht
          obtain ⟨parts, hmem, rfl⟩ := mem_map.mp ht
          simp [flatten_eq_nil_iff.mp hflat parts hmem, joinSegments]
        rw [hf, hflat]
        simp [joinSegments]
      · have hne : (paths.map (joinSegments '/')).filter (· ≠ []) ≠ [] := by
          intro hf
          rw [hf] at ih
          have hfla : ∀ part ∈ paths.flatten, IsSegment '/' part := by
            intro part hpart
            obtain ⟨parts, hmem, hpart⟩ := mem_flatten.mp hpart
            exact hr parts hmem part hpart
          exact hflat ((joinSegments_eq_nil hfla).mp (ih hr).symm)
        rw [joinSegments_cons _ hne, ih hr, joinSegments_append hnil hflat]

variable {paths : List (Option Text)}

lemma mapM_normalizePath {texts : List Text} : paths.mapM normalizePath = .ok texts ↔
      (∀ path ∈ paths, ∀ part ∈ partsOf path, IsName part) ∧
        texts = paths.map fun path => joinSegments '/' (partsOf path) := by
  induction paths generalizing texts with
  | nil => simp [pure, Except.pure]
  | cons path paths ih =>
    rw [mapM_cons, bind_eq_ok]
    constructor
    · rintro ⟨text, ht, h⟩
      obtain ⟨rest, hr, h⟩ := bind_eq_ok.mp h
      obtain ⟨hn, rfl⟩ := normalizePath_eq_ok.mp ht
      obtain ⟨hall, rfl⟩ := ih.mp hr
      cases h
      exact ⟨forall_mem_cons.mpr ⟨hn, hall⟩, rfl⟩
    · rintro ⟨hall, rfl⟩
      obtain ⟨hn, hall⟩ := forall_mem_cons.mp hall
      exact ⟨_, normalizePath_eq_ok.mpr ⟨hn, rfl⟩, bind_eq_ok.mpr ⟨_, ih.mpr ⟨hall, rfl⟩, rfl⟩⟩

lemma joinPath_eq_ok : joinPath paths = .ok text ↔ (∀ part ∈ paths.flatMap partsOf, IsName part) ∧
      text = joinSegments '/' (paths.flatMap partsOf) := by
  have hj : (∀ path ∈ paths, ∀ part ∈ partsOf path, IsName part) →
      joinSegments '/' ((paths.map fun path => joinSegments '/' (partsOf path)).filter (· ≠ [])) =
        joinSegments '/' (paths.flatMap partsOf) := by
    intro hall
    have hs : ∀ parts ∈ paths.map partsOf, ∀ part ∈ parts, IsSegment '/' part := by
      intro parts hp part hpart
      obtain ⟨path, hpath, rfl⟩ := mem_map.mp hp
      exact (hall path hpath part hpart).1.1
    have hf := joinSegments_flatten hs
    rw [map_map] at hf
    exact hf
  rw [joinPath, bind_eq_ok]
  simp only [mapM_normalizePath, mem_flatMap, forall_exists_index, and_imp]
  constructor
  · rintro ⟨_, ⟨hall, rfl⟩, h⟩
    refine ⟨fun part path hpath => hall path hpath part, ?_⟩
    rw [← hj hall]
    exact (Except.ok.inj h).symm
  · rintro ⟨hall, rfl⟩
    have hall := fun path hpath part => hall part path hpath
    exact ⟨_, ⟨hall, rfl⟩, congrArg Except.ok (hj hall)⟩

lemma splitPath_join {last : Text} (h : ∀ part ∈ parts ++ [last], IsName part) :
    splitPath (joinSegments '/' (parts ++ [last])) = .ok (joinSegments '/' parts, last) := by
  have hp := partsOf_join fun part hpart => (h part hpart).1
  have hn : normalizePath (some (joinSegments '/' (parts ++ [last]))) =
      .ok (joinSegments '/' (parts ++ [last])) := by
    rw [normalizePath_eq_ok, hp]
    exact ⟨h, rfl⟩
  have hl : IsSegment '/' last := (h last (by simp)).1.1
  have hne : joinSegments '/' (parts ++ [last]) ≠ [] := by
    rw [Ne, joinSegments_eq_nil fun part hpart => (h part hpart).1.1]
    simp
  rw [splitPath, hn]
  change (if joinSegments '/' (parts ++ [last]) = [] then _ else _) = _
  rw [if_neg hne]
  split
  · next hs =>
    have hnil : parts = [] := by
      by_contra hp
      rw [joinSegments_append hp (cons_ne_nil _ _)] at hs
      simp at hs
    rw [hnil]
    simp [joinSegments, pure, Except.pure]
  · exact congrArg Except.ok (splitLast_joinSegments hl)

end Dvt.ServiceFiles
