import Dvt.Library.Lines
import Dvt.ServiceFiles.Tree

/-! The storage gateway over the client: listings and deletions. -/

namespace Dvt.ServiceFiles

open Library List FileRecord
open Projects (Text IsPart pathParts)

variable {row : FileRecord} {path : Text} {part : Text} {parts : List Text}

inductive Failure
  | invalidPath (path : Text) (reason : String)
  | client (raised : Raised)
  | recursion
  deriving DecidableEq, Repr

def fromRaw (raw : Text) : Except Failure Text :=
  let source := (stripSpace raw).map fun c => if c = '\\' then '/' else c
  if source = [] ∨ source = ['/'] then .ok []
  else
    let parts := (source.splitOn '/').filter fun part => part ≠ [] ∧ part ≠ ['.']
    if parts.any (· = ['.', '.']) then .error (.invalidPath raw "path traversal is not allowed")
    else .ok (joinSegments '/' parts)

structure Entry where
  name : Text
  path : Text
  isDir : Bool
  size : ℕ
  sha256 : Option String
  deriving DecidableEq, Repr

structure Gateway where
  client : Client
  collation : Text → Text → Bool

structure DeleteResult where
  deletedCount : ℕ := 0
  errors : List (Text × Failure) := []
  deriving DecidableEq, Repr

section

variable (g : Gateway)

def Gateway.before (a b : FileRecord) : Bool :=
  if a.isDir = b.isDir then g.collation a.name b.name else a.isDir

def toEntry (row : FileRecord) : Except Raised Entry := do
  let path ← joinPath [some row.parentPath, some row.name]
  return ⟨row.name, path, row.isDir, row.size, row.sha256⟩

def Gateway.listEntries (path : Option Text) (store : Store) : Except Raised (List Entry) := do
  let parentPath ← g.client.scopedPath path none
  ((g.client.children store parentPath).mergeSort g.before).mapM toEntry

def Gateway.listNodes (path : Text) (maxItems : ℕ) (store : Store) :
    Except Failure (List Entry × Bool) :=
  match fromRaw path with
  | .error failure => .error failure
  | .ok relative =>
    match g.listEntries (some relative) store with
    | .error raised => .error (.client raised)
    | .ok entries => .ok (entries.take maxItems, entries.length > maxItems)

def Gateway.deleteFile (path : Text) (store : Store) : Except Failure Store :=
  match fromRaw path with
  | .error failure => .error failure
  | .ok relative =>
    match g.client.remove (some relative) none store with
    | .error raised => .error (.client raised)
    | .ok store => .ok store

def Gateway.deleteFiles : List Text → Store → DeleteResult → Store × DeleteResult
  | [], store, result => (store, result)
  | path :: paths, store, result =>
    match g.deleteFile path store with
    | .ok store =>
      Gateway.deleteFiles paths store { result with deletedCount := result.deletedCount + 1 }
    | .error failure =>
      Gateway.deleteFiles paths store { result with errors := result.errors ++ [(path, failure)] }

def DeleteResult.add (a b : DeleteResult) : DeleteResult :=
  ⟨a.deletedCount + b.deletedCount, a.errors ++ b.errors⟩

def Gateway.deleteEntries (deleteFolder : Text → Store → Store × Except Failure DeleteResult) :
    List Entry → Store → DeleteResult → Store × Except Failure DeleteResult
  | [], store, result => (store, .ok result)
  | entry :: entries, store, result =>
    if entry.isDir then
      match deleteFolder entry.path store with
      | (store, .error failure) => (store, .error failure)
      | (store, .ok inner) => Gateway.deleteEntries deleteFolder entries store (result.add inner)
    else
      let (store, inner) := g.deleteFiles [entry.path] store {}
      Gateway.deleteEntries deleteFolder entries store (result.add inner)

/-- `delete_folder` with at most `fuel` nested calls. -/
def Gateway.deleteFolder : ℕ → Text → Store → Store × Except Failure DeleteResult
  | 0, _, store => (store, .error .recursion)
  | fuel + 1, path, store =>
    match fromRaw path with
    | .error failure => (store, .error failure)
    | .ok relative =>
      match g.listEntries (some relative) store with
      | .error raised => (store, .error (.client raised))
      | .ok entries =>
        match g.deleteEntries (Gateway.deleteFolder fuel) entries store {} with
        | (store, .error failure) => (store, .error failure)
        | (store, .ok result) =>
          match g.client.rmdir (some relative) none store with
          | .ok store => (store, .ok result)
          | .error (.fileNotFound _) => (store, .ok result)
          | .error raised => (store, .error (.client raised))

end

section

variable (g : Gateway)

def Gateway.resolve (path : Text) : Except Failure Text :=
  match fromRaw path with
  | .error failure => .error failure
  | .ok relative =>
    match g.client.scopedPath (some relative) none with
    | .error raised => .error (.client raised)
    | .ok path => .ok path

def Gateway.Deletes (fuel : ℕ) (path : Text) (dir : FileRecord) (store : Store) : Prop :=
  ∃ store', g.deleteFolder fuel path store =
      (store', .ok ⟨store.rows.countP fun row => g.client.owns row ∧ dir.parts <+: row.parts ∧
        row.isDir = false, []⟩) ∧
    store'.rows = store.rows.filter fun row => ¬ (g.client.owns row ∧ dir.parts <+: row.parts)

structure Gateway.Sound (fuel : ℕ) (store : Store) : Prop where
  addresses : ∀ path maxItems nodes truncated, g.listNodes path maxItems store =
    .ok (nodes, truncated) → ∀ node ∈ nodes, g.resolve node.path = .ok node.path
  deletes : ∀ path, ∀ dir ∈ store.rows, g.client.owns dir = true → dir.isDir = true →
    g.resolve path = .ok dir.path → g.Deletes fuel path dir store

/-- Such a text is dropped from a path. -/
def Vanishes (text : Text) : Prop := text = [] ∨ text = ['.']

instance (text : Text) : Decidable (Vanishes text) := inferInstanceAs (Decidable (_ ∨ _))

/-- The path of an entry is read as relative to the root prefix. That is harmless without a prefix
unless white space is stripped off the path, and under a prefix only if the strip takes away the first
part of the prefix, or the last part of a path that repeats one name. -/
def Usable (root : List Text) (path : Text) : Prop :=
  let rest := (pathParts path).drop root.length
  let last := rest.getLastD []
  match root with
  | [] => stripSpace path = path
  | [r] => Vanishes (r.dropWhile isSpace) ∧ last.rdropWhile isSpace = last ∨
      (∀ part ∈ rest, part = r.dropWhile isSpace) ∧ Vanishes (last.rdropWhile isSpace)
  | [r, s] => Vanishes (r.dropWhile isSpace) ∧ Vanishes (last.rdropWhile isSpace) ∧
      ∀ part ∈ rest, part = s
  | _ => False

instance (root : List Text) (path : Text) : Decidable (Usable root path) := by
  unfold Usable
  dsimp only
  split <;> infer_instance

end

def relativeParts (raw : Text) : List Text := (pathParts (stripSpace raw)).filter (· ≠ ['.'])

lemma fromRaw_eq (raw : Text) : fromRaw raw =
    if ['.', '.'] ∈ relativeParts raw then .error (.invalidPath raw "path traversal is not allowed")
    else .ok (joinSegments '/' (relativeParts raw)) := by
  have hp : (((stripSpace raw).map fun c => if c = '\\' then '/' else c).splitOn '/').filter
      (fun part => part ≠ [] ∧ part ≠ ['.']) = relativeParts raw := by
    rw [relativeParts, pathParts, segments, filter_filter]
    refine filter_congr fun part _ => ?_
    simp [Bool.and_comm]
  have hd : ((relativeParts raw).any fun part => part = ['.', '.']) = true ↔
      ['.', '.'] ∈ relativeParts raw := by simp
  rw [fromRaw, hp]
  split
  · next he =>
    have hnil : relativeParts raw = [] := by
      rw [← hp]
      rcases he with he | he <;> rw [he] <;> decide
    rw [hnil]
    rfl
  · exact ite_congr (propext hd) (fun _ => rfl) fun _ => rfl

variable {raw : Text}

lemma fromRaw_eq_ok {relative : Text} : fromRaw raw = .ok relative ↔
    ['.', '.'] ∉ relativeParts raw ∧ relative = joinSegments '/' (relativeParts raw) := by
  rw [fromRaw_eq]
  split
  · next h => simp [h]
  · next h => simp [h, eq_comm]

lemma isName_of_mem_relativeParts (hd : ['.', '.'] ∉ relativeParts raw)
    (h : part ∈ relativeParts raw) : IsName part := by
  obtain ⟨hmem, hdot⟩ := mem_filter.mp h
  refine ⟨Projects.isPart_of_mem_pathParts hmem, fun hres => ?_⟩
  rw [isReserved, Bool.or_eq_true, decide_eq_true_eq, decide_eq_true_eq] at hres
  rcases hres with rfl | rfl
  · simp at hdot
  · exact hd h

lemma rdropWhile_slash (a b : Text) :
    (a ++ '/' :: b).rdropWhile isSpace = a ++ '/' :: b.rdropWhile isSpace := by
  rw [List.rdropWhile, List.rdropWhile, reverse_append, reverse_cons,
    append_assoc, singleton_append, dropWhile_append]
  split
  · next hnil =>
    rw [dropWhile_cons_of_neg (by decide), isEmpty_iff.mp hnil]
    simp
  · simp

lemma stripSpace_slash (a b : Text) :
    stripSpace (a ++ '/' :: b) = a.dropWhile isSpace ++ '/' :: b.rdropWhile isSpace := by
  have hl : (a ++ '/' :: b).dropWhile isSpace = a.dropWhile isSpace ++ '/' :: b := by
    rw [dropWhile_append]
    split
    · next hnil =>
      rw [dropWhile_cons_of_neg (by decide), isEmpty_iff.mp hnil, nil_append]
    · rfl
  rw [stripSpace, hl, rdropWhile_slash]

lemma pathParts_slash (a b : Text) : pathParts (a ++ '/' :: b) = pathParts a ++ pathParts b := by
  rw [pathParts, map_append]
  exact segments_append_cons _ _

lemma filter_dot_eq_self (h : ∀ part ∈ parts, IsName part) : parts.filter (· ≠ ['.']) = parts := by
  rw [filter_eq_self]
  intro part hpart
  refine decide_eq_true fun hdot => (h part hpart).2 ?_
  rw [hdot]
  decide

lemma IsName.not_vanishes (h : IsName part) : ¬ Vanishes part := by
  rintro (hnil | hdot)
  · exact h.1.1.1 hnil
  · exact h.2 (by simp [isReserved, hdot])

/-- The strip reaches the outer parts of a path only. -/
lemma relativeParts_joinSegments {first last : Text} {middle : List Text}
    (h : ∀ part ∈ first :: (middle ++ [last]), IsName part) :
    relativeParts (joinSegments '/' (first :: (middle ++ [last]))) =
      (if Vanishes (first.dropWhile isSpace) then [] else [first.dropWhile isSpace]) ++ middle ++
        if Vanishes (last.rdropWhile isSpace) then [] else [last.rdropWhile isSpace] := by
  have hm : ∀ part ∈ middle, IsName part := fun part hpart =>
    h part (mem_cons_of_mem _ (mem_append_left _ hpart))
  have hl : ∀ part : Text, joinSegments '/' [part] = part := by simp [joinSegments]
  have hend : ∀ part text : Text, IsName part → text ⊆ part →
      (pathParts text).filter (· ≠ ['.']) = if Vanishes text then [] else [text] := by
    intro part text hpart hsub
    by_cases hnil : text = []
    · rw [hnil]
      decide
    · have hp : pathParts (joinSegments '/' [text]) = [text] := Projects.pathParts_joinSegments
        (forall_mem_singleton.mpr
          ⟨⟨hnil, fun hc => hpart.1.1.2 (hsub hc)⟩, fun hc => hpart.1.2 (hsub hc)⟩)
      rw [hl] at hp
      rw [hp]
      by_cases hdot : text = ['.'] <;> simp [Vanishes, hnil, hdot]
  rw [joinSegments_cons _ (by simp), relativeParts, stripSpace_slash, pathParts_slash, filter_append,
    hend first _ (h _ mem_cons_self) (dropWhile_sublist _).subset, append_assoc]
  congr 1
  have hsub := rdropWhile_prefix isSpace last
  have hlast := hend last _ (h _ (by simp)) hsub.subset
  by_cases hnil : middle = []
  · rw [hnil, nil_append, nil_append, hl, hlast]
  · rw [joinSegments_append hnil (by simp), hl, rdropWhile_slash, pathParts_slash, filter_append,
      Projects.pathParts_joinSegments fun part hpart => (hm part hpart).1, filter_dot_eq_self hm, hlast]

lemma length_joinSegments_le {rest : List Text} (h : parts.Sublist rest) :
    (joinSegments '/' parts).length ≤ (joinSegments '/' rest).length := by
  have hl : ∀ part : Text, joinSegments '/' [part] = part := by simp [joinSegments]
  have hcons : ∀ (part : Text) (parts : List Text), (joinSegments '/' parts).length ≤
      (joinSegments '/' (part :: parts)).length := by
    intro part parts
    by_cases hnil : parts = []
    · rw [hnil]
      exact Nat.zero_le _
    · rw [joinSegments_cons part hnil, length_append, length_cons]
      omega
  induction h with
  | slnil => exact le_rfl
  | cons part _ ih => exact ih.trans (hcons part _)
  | @cons_cons parts rest part hsub ih =>
    by_cases hr : rest = []
    · rw [hr] at hsub ⊢
      rw [sublist_nil.mp hsub]
    · by_cases hp : parts = []
      · rw [hp, hl, joinSegments_cons part hr, length_append]
        omega
      · rw [joinSegments_cons part hr, joinSegments_cons part hp, length_append,
          length_append, length_cons, length_cons]
        omega

lemma length_joinSegments_relativeParts (raw : Text) :
    (joinSegments '/' (relativeParts raw)).length ≤ (stripSpace raw).length := by
  have hsub : (relativeParts raw).Sublist
      (((stripSpace raw).map fun c => if c = '\\' then '/' else c).splitOn '/') :=
    filter_sublist.trans filter_sublist
  have hlen := length_joinSegments_le hsub
  rwa [joinSegments.eq_def _ (List.splitOn _ _), intercalate_splitOn, length_map] at hlen

lemma stripSpace_eq_self_of_length (h : raw.length ≤ (stripSpace raw).length) : stripSpace raw = raw := by
  have hl := dropWhile_suffix (l := raw) isSpace
  have hr := rdropWhile_prefix isSpace (raw.dropWhile isSpace)
  have hle := hr.length_le
  rw [stripSpace] at h ⊢
  rw [hr.eq_of_length (by have := hl.length_le; omega), hl.eq_of_length]
  have := hl.length_le
  omega

section

variable {g : Gateway}

lemma FileRecord.Normal.pathParts_path (h : row.Normal) : pathParts row.path = row.parts :=
  Projects.pathParts_joinSegments fun part hpart => (h.2 part hpart).1

lemma scopedPath_relative (c : Client) (hd : ['.', '.'] ∉ relativeParts path) :
    c.scopedPath (some (joinSegments '/' (relativeParts path))) none =
        .ok (joinSegments '/' (c.rootParts ++ relativeParts path)) ∧
      ∀ part ∈ c.rootParts ++ relativeParts path, IsName part := by
  have hn : ∀ part ∈ relativeParts path, IsName part := fun _ hpart =>
    isName_of_mem_relativeParts hd hpart
  have hall : ∀ part ∈ c.rootParts ++ relativeParts path, IsName part := fun part hpart =>
    (mem_append.mp hpart).elim ((normalizePath_eq_ok.mp c.normal).1 part) (hn part)
  refine ⟨?_, hall⟩
  rw [scopedPath_eq_ok, partsOf_join fun part hpart => (hn part hpart).1]
  simpa [partsOf] using hall

section

variable (hrow : row.Normal)

include hrow

lemma resolve_eq_path : g.resolve path = .ok row.path ↔
    ['.', '.'] ∉ relativeParts path ∧ g.client.rootParts ++ relativeParts path = row.parts := by
  rw [Gateway.resolve, fromRaw_eq]
  by_cases hd : ['.', '.'] ∈ relativeParts path
  · simp [hd]
  · obtain ⟨hs, hall⟩ := scopedPath_relative g.client hd
    rw [if_neg hd]
    dsimp only
    rw [hs]
    rw [Except.ok.injEq]
    constructor
    · intro heq
      refine ⟨hd, ?_⟩
      rw [← hrow.pathParts_path, ← heq,
        Projects.pathParts_joinSegments fun part hpart => (hall part hpart).1]
    · rintro ⟨-, heq⟩
      rw [heq, FileRecord.path]

lemma notMem_dots_of_eq {root : List Text}
    (h : root ++ relativeParts path = row.parts) : ['.', '.'] ∉ relativeParts path := by
  intro hd
  refine (hrow.2 ['.', '.'] ?_).2 (by decide)
  rw [← h]
  exact mem_append_right _ hd

lemma relativeParts_path_iff : relativeParts row.path = row.parts ↔ stripSpace row.path = row.path := by
  constructor
  · intro hp
    have hlen := length_joinSegments_relativeParts row.path
    rw [hp] at hlen
    exact stripSpace_eq_self_of_length hlen
  · intro ht
    rw [relativeParts, ht, hrow.pathParts_path, filter_dot_eq_self hrow.2]

lemma resolve_self_iff (hb : g.client.rootParts <+: row.parts) (hne : row.parts ≠ g.client.rootParts) :
    g.resolve row.path = .ok row.path ↔ Usable g.client.rootParts row.path := by
  have hr : g.resolve row.path = .ok row.path ↔
      g.client.rootParts ++ relativeParts row.path = row.parts := by
    rw [resolve_eq_path hrow]
    exact ⟨fun h => h.2, fun h => ⟨notMem_dots_of_eq hrow h, h⟩⟩
  obtain ⟨rest, hrest⟩ := hb
  have hdrop : (pathParts row.path).drop g.client.rootParts.length = rest := by
    rw [hrow.pathParts_path, ← hrest, drop_left]
  rw [hr, ← hrest, append_cancel_left_eq]
  unfold Usable
  rw [hdrop]
  by_cases hroot : g.client.rootParts = []
  · rw [hroot, nil_append] at hrest
    rw [hroot, hrest]
    exact relativeParts_path_iff hrow
  · obtain ⟨r, more, hroot⟩ := exists_cons_of_ne_nil hroot
    obtain rfl | ⟨middle, last, rfl⟩ := eq_nil_or_concat rest
    · exact absurd hrest.symm (by simpa using hne)
    rw [concat_eq_append] at hrest ⊢
    rw [hroot, cons_append, ← append_assoc] at hrest
    have hname := hrow.2
    rw [← hrest] at hname
    have hkept : ¬ Vanishes last := (hname last (by simp)).not_vanishes
    have hcount : ∀ xs ys : List Text, xs.length + more.length + ys.length ≠ 1 →
        xs ++ (more ++ middle) ++ ys ≠ middle ++ [last] := by
      intro xs ys hlen heq
      have := congrArg List.length heq
      simp only [length_append, length_singleton] at this
      omega
    rw [path, ← hrest, relativeParts_joinSegments hname, hroot]
    simp only [getLastD_concat]
    rcases more with - | ⟨s, - | ⟨t, more⟩⟩
    · split_ifs with hfirst hlast hlast
      · refine iff_of_false (hcount [] [] (by decide)) ?_
        rintro (⟨-, hcut⟩ | ⟨hall, -⟩)
        · exact hkept (hcut ▸ hlast)
        · exact hkept (hall last (by simp) ▸ hfirst)
      · simp [hfirst, hlast]
      · simp [hfirst, hlast, cons_eq_concat_iff]
      · exact iff_of_false (hcount [_] [_] (by simp)) (by simp [hfirst, hlast])
    · split_ifs with hfirst hlast hlast
      · simp [hfirst, hlast, cons_eq_concat_iff]
      · exact iff_of_false (hcount [] [_] (by simp)) (by simp [hlast])
      · exact iff_of_false (hcount [_] [] (by simp)) (by simp [hfirst])
      · exact iff_of_false (hcount [_] [_] (by simp)) (by simp [hfirst])
    · refine iff_false_intro (hcount _ _ ?_)
      simp only [length_cons]
      omega

end

lemma relativeParts_slashes (h : ∀ part ∈ parts, IsName part) :
    relativeParts ('/' :: (joinSegments '/' parts ++ ['/'])) = parts := by
  have ht : stripSpace ('/' :: (joinSegments '/' parts ++ ['/'])) =
      '/' :: (joinSegments '/' parts ++ ['/']) := by
    have := stripSpace_slash [] (joinSegments '/' parts ++ ['/'])
    rwa [rdropWhile_slash] at this
  have hs : pathParts ('/' :: (joinSegments '/' parts ++ ['/'])) =
      pathParts (joinSegments '/' parts) := by
    have hl := pathParts_slash [] (joinSegments '/' parts ++ ['/'])
    have hr := pathParts_slash (joinSegments '/' parts) []
    have hnil : pathParts [] = [] := rfl
    rw [nil_append] at hl
    rw [hl, hr, hnil, nil_append, append_nil]
  rw [relativeParts, ht, hs, Projects.pathParts_joinSegments fun part hpart =>
    (h part hpart).1, filter_dot_eq_self h]

end

variable {g : Gateway} {store : Store}

def FileRecord.entry (row : FileRecord) : Entry :=
  ⟨row.name, row.path, row.isDir, row.size, row.sha256⟩

lemma toEntry_eq (h : row.Normal) : toEntry row = .ok row.entry := by
  have hj : joinPath [some row.parentPath, some row.name] = .ok row.path := by
    rw [← h.1]
    exact joinPath_pair h.2
  rw [toEntry, hj]
  rfl

def Gateway.listed (g : Gateway) (store : Store) (parts : List Text) : List FileRecord :=
  (g.client.children store (joinSegments '/' parts)).mergeSort g.before

lemma mem_listed : row ∈ g.listed store parts ↔
    row ∈ store.rows ∧ g.client.owns row = true ∧ row.parentPath = joinSegments '/' parts := by
  rw [Gateway.listed, mem_mergeSort, Client.children, Table.mem_select, decide_eq_true_eq]

lemma listEntries_eq (hn : ∀ row ∈ store.rows, g.client.owns row = true → row.Normal)
    (hd : ['.', '.'] ∉ relativeParts path) :
    g.listEntries (some (joinSegments '/' (relativeParts path))) store =
      .ok ((g.listed store (g.client.rootParts ++ relativeParts path)).map entry) := by
  rw [Gateway.listEntries, (scopedPath_relative g.client hd).1]
  refine mapM_eq_ok.mpr ?_
  rw [map_map]
  refine map_congr_left fun row hrow => toEntry_eq ?_
  obtain ⟨hrow, howns, -⟩ := mem_listed.mp hrow
  exact hn row hrow howns

end Dvt.ServiceFiles
