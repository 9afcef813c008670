import Dvt.Projects.Renaming

/-! The service files of a copied project. -/

namespace Dvt.Projects

open Library List Table Dict FileObject

variable {part : Text} {file file' : FileObject}

section

def pathParts (path : Text) : List Text :=
  segments '/' (path.map fun c => if c = '\\' then '/' else c)

def normalizePath (path : Text) : Text := joinSegments '/' (pathParts path)

def IsPart (part : Text) : Prop := IsSegment '/' part ∧ '\\' ∉ part

instance (part : Text) : Decidable (IsPart part) := inferInstanceAs (Decidable (_ ∧ _))

def FileObject.Normal (file : FileObject) : Prop :=
  normalizePath file.parentPath = file.parentPath ∧ IsPart file.name

instance (file : FileObject) : Decidable file.Normal := inferInstanceAs (Decidable (_ ∧ _))

def FileObject.parts (file : FileObject) : List Text := pathParts file.parentPath ++ [file.name]

variable {path : Text}

lemma isPart_of_mem_pathParts (h : part ∈ pathParts path) : IsPart part := by
  refine ⟨isSegment_of_mem_segments h, fun hs => ?_⟩
  obtain ⟨c, _, hc⟩ := mem_map.mp (mem_splitOn (mem_filter.mp h).1 _ hs).1
  split at hc
  · exact absurd hc (by decide)
  · next hne => exact hne hc

lemma pathParts_of_notMem (h : '\\' ∉ path) : pathParts path = segments '/' path := by
  have hmap : (path.map fun c => if c = '\\' then '/' else c) = path := by
    refine (map_congr_left fun c hc => ?_).trans (map_id path)
    exact if_neg (ne_of_mem_of_not_mem hc h)
  rw [pathParts, hmap]

lemma pathParts_joinSegments {parts : List Text} (h : ∀ part ∈ parts, IsPart part) :
    pathParts (joinSegments '/' parts) = parts := by
  have hs : '\\' ∉ joinSegments '/' parts := by
    intro hmem
    obtain ⟨part, hpart, hc⟩ := (mem_joinSegments (by decide)).mp hmem
    exact (h part hpart).2 hc
  rw [pathParts_of_notMem hs, segments_joinSegments fun part hpart => (h part hpart).1]

lemma FileObject.isPart_of_mem_parts (hfile : file.Normal) (h : part ∈ file.parts) :
    IsPart part := by
  rcases mem_append.mp h with h | h
  · exact isPart_of_mem_pathParts h
  · exact mem_singleton.mp h ▸ hfile.2

lemma fullPath_eq (hfile : file.Normal) : fullPath file = joinSegments '/' file.parts := by
  have hp : ∀ part ∈ file.parts, IsSegment '/' part := fun part hpart =>
    (isPart_of_mem_parts hfile hpart).1
  rw [fullPath, ← hfile.1, normalizePath]
  by_cases hroot : pathParts file.parentPath = []
  · have hname : joinSegments '/' file.parts = file.name := by
      simp [parts, hroot, joinSegments]
    rw [hroot, ← hname]
    change strip '/' ('/' :: joinSegments '/' file.parts) = _
    rw [strip, dropWhile_cons_of_pos (by simp), ← strip, strip_joinSegments hp]
  · have ha : joinSegments '/' (pathParts file.parentPath ++ [file.name]) =
        joinSegments '/' (pathParts file.parentPath) ++ '/' :: joinSegments '/' [file.name] :=
      joinSegments_append hroot (cons_ne_nil file.name [])
    have hname : joinSegments '/' [file.name] = file.name := by simp [joinSegments]
    rw [hname] at ha
    rw [← ha]
    exact strip_joinSegments hp

lemma FileObject.eq_of_parts {a b : FileObject} (ha : a.Normal) (hb : b.Normal)
    (h : a.parts = b.parts) : (a.parentPath, a.name) = (b.parentPath, b.name) := by
  obtain ⟨hparent, hname⟩ := append_inj' h rfl
  rw [← ha.1, ← hb.1, normalizePath, normalizePath, hparent, singleton_inj.mp hname]

end

section

def Covers (rootPrefix : Text) (file : FileObject) : Prop := pathParts rootPrefix <+: file.parts

/-- The prefix is not empty and, up to outer slashes, written as the client writes paths. -/
def PlainPrefix (rootPrefix : Text) : Prop :=
  strip '/' rootPrefix ≠ [] ∧ strip '/' rootPrefix = normalizePath rootPrefix

instance (rootPrefix : Text) (file : FileObject) : Decidable (Covers rootPrefix file) :=
  inferInstanceAs (Decidable (_ <+: _))

instance (rootPrefix : Text) : Decidable (PlainPrefix rootPrefix) :=
  inferInstanceAs (Decidable (_ ∧ _))

variable {rootPrefix : Text}

lemma splitOn_strip_of_plain (h : PlainPrefix rootPrefix) :
    (strip '/' rootPrefix).splitOn '/' = pathParts rootPrefix := by
  obtain ⟨hne, hn⟩ := h
  rw [hn]
  refine splitOn_joinSegments ?_ fun part hpart => (isPart_of_mem_pathParts hpart).1.2
  intro hnil
  rw [hn, normalizePath, hnil] at hne
  exact hne rfl

lemma matches_iff (hfile : file.Normal) :
    strip '/' rootPrefix ≠ [] ∧ (strip '/' rootPrefix).splitOn '/' <+: file.parts ↔
      PlainPrefix rootPrefix ∧ Covers rootPrefix file := by
  constructor
  · rintro ⟨hne, hm⟩
    have hp : ∀ part ∈ (strip '/' rootPrefix).splitOn '/', IsPart part := fun part hpart =>
      isPart_of_mem_parts hfile (hm.subset hpart)
    have hj : joinSegments '/' ((strip '/' rootPrefix).splitOn '/') = strip '/' rootPrefix :=
      intercalate_splitOn '/'
    have hs := pathParts_joinSegments hp
    rw [hj] at hs
    have hstr : '\\' ∉ strip '/' rootPrefix := by
      rw [← hj]
      intro hmem
      obtain ⟨part, hpart, hc⟩ := (mem_joinSegments (by decide)).mp hmem
      exact (hp part hpart).2 hc
    have hsla : '\\' ∉ rootPrefix := fun hmem => hstr (mem_strip_of_ne hmem (by decide))
    rw [pathParts_of_notMem hstr, segments_strip, ← pathParts_of_notMem hsla] at hs
    refine ⟨⟨hne, ?_⟩, ?_⟩
    · rw [normalizePath, hs, hj]
    · rw [Covers, hs]
      exact hm
  · rintro ⟨hpla, hcov⟩
    rw [splitOn_strip_of_plain hpla]
    exact ⟨hpla.1, hcov⟩

end

section

structure Root where
  rootPrefix : Text
  uiId : String
  deriving DecidableEq

def Root.Matches (root : Root) (file : FileObject) : Prop :=
  PlainPrefix root.rootPrefix ∧ Covers root.rootPrefix file

instance (root : Root) (file : FileObject) : Decidable (root.Matches file) :=
  inferInstanceAs (Decidable (_ ∧ _))

def Root.pair (root : Root) : Text × Text :=
  (strip '/' root.rootPrefix, copyRootPrefix (strip '/' root.rootPrefix) root.uiId)

def Root.newTail (root : Root) : List Text :=
  let parts := segments '/' root.rootPrefix
  if 3 ≤ parts.length ∧ parts.head? = some "node-inputs".toList then parts.drop 2
  else ["file".toList]

def Root.newParts (root : Root) : List Text :=
  "node-inputs".toList :: root.uiId.toList :: root.newTail

def Root.movedParts (root : Root) (file : FileObject) : List Text :=
  root.newParts ++ file.parts.drop (pathParts root.rootPrefix).length

lemma Root.movedParts_ne_nil (root : Root) (file : FileObject) : root.movedParts file ≠ [] := by
  simp [movedParts, newParts]

def Root.move (root : Root) (file : FileObject) : FileObject :=
  { file with
    parentPath := joinSegments '/' (root.movedParts file).dropLast
    name := (root.movedParts file).getLast (root.movedParts_ne_nil file) }

variable {root : Root}

lemma Root.pair_snd (root : Root) : root.pair.2 = joinSegments '/' root.newParts := by
  rw [pair, copyRootPrefix, segments_strip, segments_strip, newParts, newTail]
  split_ifs
  · rfl
  · simp [joinSegments, List.intercalate]

def Root.Plain (root : Root) : Prop := IsPart root.uiId.toList

lemma Root.isSegment_of_mem_newParts (hroot : root.Plain)
    (h : part ∈ root.newParts) : IsSegment '/' part := by
  rw [newParts, mem_cons, mem_cons] at h
  rcases h with rfl | rfl | h
  · decide
  · exact hroot.1
  · rw [newTail] at h
    split_ifs at h
    · exact isSegment_of_mem_segments (mem_of_mem_drop h)
    · rw [mem_singleton.mp h]
      decide

lemma Root.isSegment_of_mem_movedParts (hroot : root.Plain) (hfile : file.Normal)
    (h : part ∈ root.movedParts file) : IsSegment '/' part := by
  rcases mem_append.mp h with h | h
  · exact isSegment_of_mem_newParts hroot h
  · exact (isPart_of_mem_parts hfile (mem_of_mem_drop h)).1

lemma splitLast_movedParts (hroot : root.Plain) (hfile : file.Normal) :
    splitLast '/' (joinSegments '/' (root.movedParts file)) =
      ((root.move file).parentPath, (root.move file).name) := by
  have hl := root.isSegment_of_mem_movedParts hroot hfile
    (getLast_mem (root.movedParts_ne_nil file))
  conv_lhs => rw [← dropLast_append_getLast (root.movedParts_ne_nil file)]
  exact splitLast_joinSegments hl

lemma replacePathPrefix_eq (hfile : file.Normal) :
    replacePathPrefix (fullPath file) root.pair.1 root.pair.2 =
      if root.Matches file then some (joinSegments '/' (root.movedParts file)) else none := by
  have hpar : ∀ part ∈ file.parts, IsSegment '/' part := fun part hpart =>
    (isPart_of_mem_parts hfile hpart).1
  have hm : root.pair.1 ≠ [] ∧ (joinSegments '/' file.parts = root.pair.1 ∨
      root.pair.1 ++ ['/'] <+: joinSegments '/' file.parts) ↔ root.Matches file := by
    rw [isPrefix_joinSegments (by simp [parts]) fun part hpart => (hpar part hpart).2]
    exact matches_iff hfile
  rw [replacePathPrefix, fullPath_eq hfile, strip_joinSegments hpar, root.pair_snd]
  by_cases h : root.Matches file
  · obtain ⟨hne, hpre⟩ := hm.mpr h
    obtain ⟨rest, hr⟩ := h.2
    have hmov : joinSegments '/' (root.movedParts file) = joinSegments '/' root.newParts ++
        (joinSegments '/' file.parts).drop root.pair.1.length := by
      have hold : joinSegments '/' (pathParts root.rootPrefix) = root.pair.1 := h.1.2.symm
      have hold' : pathParts root.rootPrefix ≠ [] := by
        intro hnil
        rw [hnil] at hold
        exact hne hold.symm
      rw [Root.movedParts, ← hr, drop_left, ← hold]
      exact joinSegments_replace hold' (cons_ne_nil _ _) rest
    rw [if_neg hne, if_pos h, hmov]
    by_cases heq : joinSegments '/' file.parts = root.pair.1
    · rw [if_pos heq, heq, drop_length, append_nil]
    · have hbelow := hpre.resolve_left heq
      rw [← isPrefixOf_iff_prefix] at hbelow
      rw [if_neg heq, if_pos hbelow]
  · rw [if_neg h]
    by_cases hne : root.pair.1 = []
    · rw [if_pos hne]
    · have hno : ¬ (joinSegments '/' file.parts = root.pair.1 ∨
          root.pair.1 ++ ['/'] <+: joinSegments '/' file.parts) := fun hor => h (hm.mp ⟨hne, hor⟩)
      rw [not_or, ← isPrefixOf_iff_prefix] at hno
      rw [if_neg hne, if_neg hno.1, if_neg hno.2]

variable {root' : Root}

lemma Root.movedParts_inj (h : root.Matches file)
    (h' : root'.Matches file') (hp : root.movedParts file = root'.movedParts file')
    (hro : root.uiId = root'.uiId → root = root') : root = root' ∧ file.parts = file'.parts := by
  have hid : root.uiId = root'.uiId := by
    have ht := (List.cons.inj hp).2
    exact String.toList_inj.mp (List.cons.inj ht).1
  obtain rfl := hro hid
  refine ⟨rfl, ?_⟩
  have hd := append_cancel_left hp
  obtain ⟨rest, hr⟩ := h.2
  obtain ⟨rest', hr'⟩ := h'.2
  rw [← hr, ← hr', drop_left, drop_left] at hd
  rw [← hr, ← hr', hd]

lemma Root.move_inj (hroot : root.Plain) (hroot' : root'.Plain)
    (hfile : file.Normal) (hfile' : file'.Normal)
    (h : ((root.move file).parentPath, (root.move file).name) =
      ((root'.move file').parentPath, (root'.move file').name)) :
    root.movedParts file = root'.movedParts file' := by
  obtain ⟨hparent, hname⟩ := Prod.mk.inj h
  have hs : ∀ part ∈ (root.movedParts file).dropLast, IsSegment '/' part := fun part hpart =>
    root.isSegment_of_mem_movedParts hroot hfile (mem_of_mem_dropLast hpart)
  have hs' : ∀ part ∈ (root'.movedParts file').dropLast, IsSegment '/' part :=
    fun part hpart => root'.isSegment_of_mem_movedParts hroot' hfile' (mem_of_mem_dropLast hpart)
  have hl : (root.movedParts file).getLast (root.movedParts_ne_nil file) =
      (root'.movedParts file').getLast (root'.movedParts_ne_nil file') := hname
  rw [← dropLast_append_getLast (root.movedParts_ne_nil file),
    ← dropLast_append_getLast (root'.movedParts_ne_nil file'), hl,
    ← segments_joinSegments hs, ← segments_joinSegments hs']
  exact congrArg (fun path => segments '/' path ++ _) hparent

end

section

variable {roots : List Root}

def firstMatch (roots : List Root) (file : FileObject) : Option Root :=
  roots.find? fun root => root.Matches file

def movedFile (roots : List Root) (file : FileObject) : Option FileObject :=
  (firstMatch roots file).map fun root => root.move file

lemma firstMatch_some {root : Root} (h : firstMatch roots file = some root) :
    root ∈ roots ∧ root.Matches file :=
  ⟨mem_of_find?_eq_some h, by simpa using List.find?_some h⟩

variable {value : FileObject}

lemma movedFile_some (h : movedFile roots file = some value) :
    ∃ root ∈ roots, root.Matches file ∧ value = root.move file := by
  obtain ⟨root, hf, rfl⟩ := Option.map_eq_some_iff.mp h
  obtain ⟨hroot, hm⟩ := firstMatch_some hf
  exact ⟨root, hroot, hm, rfl⟩

variable (hro : ∀ root ∈ roots, root.Plain)

include hro

lemma newPath_eq {copied : List (Text × Text)}
    (hfile : file.Normal) (hfree : ∀ root ∈ roots, root.Matches file →
      ((root.move file).parentPath, (root.move file).name) ∉ copied) :
    newPath (roots.map Root.pair) copied file =
      (movedFile roots file).map fun value => (value.parentPath, value.name) := by
  induction roots with
  | nil => rfl
  | cons root roots ih =>
    obtain ⟨hroot, hro⟩ := forall_mem_cons.mp hro
    obtain ⟨hf, hfree⟩ := forall_mem_cons.mp hfree
    rw [newPath, map_cons, List.findSome?_cons, replacePathPrefix_eq hfile, movedFile,
      firstMatch, List.find?_cons]
    by_cases h : root.Matches file
    · simp only [h, if_true, decide_true, Option.bind_some, splitLast_movedParts hroot hfile,
        if_neg (hf h), Option.map_some]
    · simp only [h]
      exact ih hro hfree

variable (hids : ∀ root ∈ roots, ∀ root' ∈ roots, root.uiId = root'.uiId → root = root')

include hids

lemma foldl_copyFileObject {files values : List FileObject} (hf : ∀ file ∈ files, file.Normal)
    (hd : files.Pairwise fun a b => a.parts ≠ b.parts)
    (hv : ∀ value ∈ values, ∃ root ∈ roots, ∃ file : FileObject, file.Normal ∧
      root.Matches file ∧ value = root.move file ∧ ∀ other ∈ files, file.parts ≠ other.parts) :
    files.foldl (copyFileObject (roots.map Root.pair)) values =
      values ++ files.filterMap (movedFile roots) := by
  induction files generalizing values with
  | nil => simp
  | cons file files ih =>
    obtain ⟨hfile, hf⟩ := forall_mem_cons.mp hf
    obtain ⟨hnew, hd⟩ := pairwise_cons.mp hd
    have hfree : ∀ root ∈ roots, root.Matches file →
        ((root.move file).parentPath, (root.move file).name) ∉
          values.map fun value => (value.parentPath, value.name) := by
      intro root hroot hm hmem
      obtain ⟨value, hvalue, hkey⟩ := mem_map.mp hmem
      obtain ⟨root', hroot', file', hfile', hm', rfl, ho⟩ := hv value hvalue
      have hp := Root.move_inj (hro root' hroot') (hro root hroot) hfile' hfile hkey
      have hs := Root.movedParts_inj hm' hm hp (hids root' hroot' root hroot)
      exact ho file mem_cons_self hs.2
    have hstep : copyFileObject (roots.map Root.pair) values file =
        values ++ (movedFile roots file).toList := by
      rw [copyFileObject, newPath_eq hro hfile hfree]
      cases hmov : movedFile roots file with
      | none => simp
      | some value =>
        obtain ⟨root, -, rfl⟩ := Option.map_eq_some_iff.mp hmov
        rfl
    rw [foldl_cons, hstep, ih hf hd ?_, filterMap_cons]
    · cases movedFile roots file <;> simp
    · intro value hvalue
      rcases mem_append.mp hvalue with hvalue | hvalue
      · obtain ⟨root, hroot, file', hfile', hm, heq, ho⟩ := hv value hvalue
        exact ⟨root, hroot, file', hfile', hm, heq, fun other hmem =>
          ho other (mem_cons_of_mem file hmem)⟩
      · obtain ⟨root, hroot, hm, rfl⟩ := movedFile_some (Option.mem_toList.mp hvalue)
        exact ⟨root, hroot, file, hfile, hm, rfl, hnew⟩

lemma mem_copied {files copied : Table fileObjectSchema} (hf : ∀ file ∈ files.rows, file.Normal)
    (h : copyDvtServiceFileObjects files (roots.map Root.pair) = some copied)
    : value ∈ copied.rows ↔ ∃ file ∈ files.rows, movedFile roots file = some value := by
  have hd : files.rows.Pairwise fun a b => a.parts ≠ b.parts := by
    refine files.unique.imp_of_mem fun {a b} ha hb hc hp => hc ?_
    exact eq_of_parts (hf a ha) (hf b hb) hp
  have hv : files.rows.foldl (copyFileObject (roots.map Root.pair)) [] =
      files.rows.filterMap (movedFile roots) :=
    foldl_copyFileObject hro hids hf hd nofun
  rw [copyDvtServiceFileObjects, hv] at h
  split_ifs at h
  rw [rows_insertAll h]
  exact mem_filterMap

end

section

lemma pathParts_append_cons (path rest : Text) :
    pathParts (path ++ '/' :: rest) = pathParts path ++ pathParts rest := by
  rw [pathParts, map_append]
  exact segments_append_cons _ _

lemma pathParts_part (h : IsPart part) : pathParts part = [part] := by
  have hj : pathParts (joinSegments '/' [part]) = [part] :=
    pathParts_joinSegments (by simpa using h)
  simpa [joinSegments] using hj

variable {root : Root}

variable (hroot : root.Plain)

include hroot

lemma Root.pathParts_pair : ∃ tail,
    pathParts root.pair.2 = "node-inputs".toList :: root.uiId.toList :: tail := by
  have hne : root.newTail ≠ [] := by
    rw [newTail]
    split_ifs with h
    · intro hnil
      have hl := congrArg List.length hnil
      rw [length_drop, length_nil] at hl
      omega
    · exact cons_ne_nil _ _
  refine ⟨pathParts (joinSegments '/' root.newTail), ?_⟩
  rw [pair_snd, newParts, joinSegments_cons _ (cons_ne_nil _ _), joinSegments_cons _ hne,
    pathParts_append_cons, pathParts_append_cons, pathParts_part hroot]
  rfl

lemma Root.isPart_of_mem_newParts (hp : PlainPrefix root.rootPrefix)
    (h : part ∈ root.newParts) : IsPart part := by
  rw [newParts, mem_cons, mem_cons] at h
  rcases h with rfl | rfl | h
  · decide
  · exact hroot
  · rw [newTail] at h
    split_ifs at h
    · have hmem : part ∈ segments '/' (strip '/' root.rootPrefix) := by
        rw [segments_strip]
        exact mem_of_mem_drop h
      rw [hp.2, normalizePath, segments_joinSegments fun part hpart =>
        (isPart_of_mem_pathParts hpart).1] at hmem
      exact isPart_of_mem_pathParts hmem
    · rw [mem_singleton.mp h]
      decide

lemma Root.pathParts_pair_of_plain (hp : PlainPrefix root.rootPrefix) :
    pathParts root.pair.2 = root.newParts := by
  rw [pair_snd]
  exact pathParts_joinSegments fun part hpart => isPart_of_mem_newParts hroot hp hpart

lemma Root.parts_move (hfile : file.Normal)
    (hpla : PlainPrefix root.rootPrefix) : (root.move file).parts = root.movedParts file := by
  have hp : ∀ part ∈ root.movedParts file, IsPart part := by
    intro part hpart
    rcases mem_append.mp hpart with h | h
    · exact isPart_of_mem_newParts hroot hpla h
    · exact isPart_of_mem_parts hfile (mem_of_mem_drop h)
  have hparent : pathParts (joinSegments '/' (root.movedParts file).dropLast) =
      (root.movedParts file).dropLast :=
    pathParts_joinSegments fun part hpart => hp part (mem_of_mem_dropLast hpart)
  rw [parts, move]
  dsimp only
  rw [hparent]
  exact dropLast_append_getLast (root.movedParts_ne_nil file)

end

section

def Copying.rootPrefixOf (c : Copying) (row : NodeRow) : Option Text :=
  (extractDvtServiceFilesConnection row.inputValues).bind fun fields =>
    (connectionProperties c.builtins fields).map (rootPrefix c.builtins)

def CopyOf (oldPrefix newPrefix : Text) (file copy : FileObject) : Prop :=
  copy.parts = pathParts newPrefix ++ file.parts.drop (pathParts oldPrefix).length ∧
    { copy with parentPath := file.parentPath, name := file.name } = file

structure FilesCarried (c : Copying) (copied : CopiedProject) : Prop where
  all : ∀ rows ∈ c.nodes.zip copied.nodes, ∀ oldPrefix ∈ c.rootPrefixOf rows.1,
    ∃ newPrefix ∈ c.rootPrefixOf rows.2, ∀ file ∈ c.files.rows,
      Covers oldPrefix file → ∃ copy ∈ copied.files.rows, CopyOf oldPrefix newPrefix file copy
  only : ∀ copy ∈ copied.files.rows, ∃ rows ∈ c.nodes.zip copied.nodes,
    ∃ oldPrefix ∈ c.rootPrefixOf rows.1, ∃ newPrefix ∈ c.rootPrefixOf rows.2,
      ∃ file ∈ c.files.rows, Covers oldPrefix file ∧ CopyOf oldPrefix newPrefix file copy

/-- Each file is below the root prefix of one node at most, and that is a plain one. -/
def RootsApart (c : Copying) : Prop :=
  ∀ file ∈ c.files.rows, ∀ row ∈ c.nodes, ∀ oldPrefix ∈ c.rootPrefixOf row,
    Covers oldPrefix file → PlainPrefix oldPrefix ∧
      ∀ other ∈ c.nodes, ∀ otherPrefix ∈ c.rootPrefixOf other,
        Covers otherPrefix file → other.uiId = row.uiId

variable {c : Copying} {copied : CopiedProject}

lemma rewriteConnection_some {builtins : Builtins} {organizationId newProjectId newNodeUiId : String}
    {fields : List (String × Json)} {connection : RewrittenConnection}
    (h : rewriteConnection builtins organizationId newProjectId newNodeUiId fields =
      some connection) :
    ∃ properties, connectionProperties builtins fields = some properties ∧
      connection.oldRootPrefix = strip '/' (rootPrefix builtins properties) ∧
      connection.newRootPrefix = copyRootPrefix (strip '/' (rootPrefix builtins properties))
        newNodeUiId ∧
      connection.fields.lookup "type" = fields.lookup "type" ∧
      (connectionProperties builtins connection.fields).map (rootPrefix builtins) =
        some connection.newRootPrefix := by
  obtain ⟨properties, hp, rfl⟩ := Option.map_eq_some_iff.mp h
  refine ⟨properties, hp, rfl, rfl, ?_, ?_⟩
  · simp [lookup_assign]
  · have ht : ∀ (k : String) (v : Json) (fields : List (String × Json)),
        truthy (.obj (Dict.assign k v fields)) = true := by
      intro k v fields
      cases fields with
      | nil => rfl
      | cons e fields =>
        rw [Dict.assign]
        split <;> rfl
    simp [connectionProperties, lookup_assign, ht, rootPrefix]

lemma copyNode_root {row row' : NodeRow} {newId : String} {pair : Option (Text × Text)}
    (h : c.copyNode newId row = some (row', pair)) :
    pair = (c.rootPrefixOf row).map (fun rootPrefix => Root.pair ⟨rootPrefix, newId⟩) ∧
      c.rootPrefixOf row' =
        (c.rootPrefixOf row).map fun rootPrefix => (Root.pair ⟨rootPrefix, newId⟩).2 := by
  obtain ⟨rewritten, hr, h⟩ := Option.map_eq_some_iff.mp h
  cases h
  rw [rewriteDvtServiceFilesInputValues] at hr
  split at hr
  · next hn =>
    cases hr
    simp [Copying.rootPrefixOf, hn]
  · next fields hsome =>
    obtain ⟨connection, hc, rfl⟩ := Option.map_eq_some_iff.mp hr
    obtain ⟨properties, hp, hold, hnew, ht, hroot⟩ := rewriteConnection_some hc
    have hro : c.rootPrefixOf row = some (rootPrefix c.builtins properties) := by
      rw [Copying.rootPrefixOf, hsome, Option.bind_some, hp]
      rfl
    have hs : isDvtServiceFilesConnection connection.fields = true := by
      rw [isDvtServiceFilesConnection, ht]
      rw [extractDvtServiceFilesConnection] at hsome
      split at hsome
      · split_ifs at hsome with hf
        cases hsome
        exact hf
      · cases hsome
    constructor
    · rw [hro, hold, hnew]
      rfl
    · have he : extractDvtServiceFilesConnection
          (row.inputValues.set "connection" (some (.const (.obj connection.fields)))) =
            some connection.fields := by
        rw [extractDvtServiceFilesConnection, get?_set, if_pos rfl]
        dsimp only
        rw [if_pos hs]
      rw [hro, Copying.rootPrefixOf, he, Option.bind_some, hroot, hnew]
      rfl

def Copying.rootOf (c : Copying) (row : NodeRow) : Option Root :=
  (c.rootPrefixOf row).map fun rootPrefix => ⟨rootPrefix, c.newUiId row.uiId⟩

def Copying.projectRoots (c : Copying) : List Root := c.nodes.filterMap c.rootOf

lemma mem_projectRoots {oldPrefix : Text} {id : String} :
    ⟨oldPrefix, id⟩ ∈ c.projectRoots ↔ ∃ row ∈ c.nodes,
      c.rootPrefixOf row = some oldPrefix ∧ c.newUiId row.uiId = id := by
  simp [Copying.projectRoots, Copying.rootOf]

lemma isPart_newUiId {id : String} (hid : id ∈ c.nodes.map NodeRow.uiId) :
    IsPart (c.newUiId id).toList := by
  obtain ⟨i, hnew⟩ := exists_newUiId hid
  have hp := c.uuids.node_plain i
  rw [hnew, Copying.newNodeUiId, String.toList_append]
  refine ⟨⟨by simp, ?_⟩, ?_⟩
  · rw [mem_append, not_or]
    exact ⟨by decide, hp.1⟩
  · rw [mem_append, not_or]
    exact ⟨by decide, hp.2⟩

lemma Copies.rootPrefixes (hco : Copies c copied) {oldPrefix newPrefix : Text} :
    (∃ rows ∈ c.nodes.zip copied.nodes, c.rootPrefixOf rows.1 = some oldPrefix ∧
      c.rootPrefixOf rows.2 = some newPrefix) ↔
    ∃ root ∈ c.projectRoots, root.rootPrefix = oldPrefix ∧ root.pair.2 = newPrefix := by
  constructor
  · rintro ⟨rows, hrows, hold, hnew⟩
    obtain ⟨hrow, pair, hc⟩ := hco.of_mem_zip hrows
    rw [(copyNode_root hc).2, hold] at hnew
    exact ⟨_, mem_projectRoots.mpr ⟨rows.1, hrow, hold, rfl⟩, rfl, Option.some.inj hnew⟩
  · rintro ⟨⟨oldPrefix, id⟩, hroot, rfl, rfl⟩
    obtain ⟨row, hrow, hpre, rfl⟩ := mem_projectRoots.mp hroot
    obtain ⟨row', pair, hrows, hc⟩ := hco.exists_copy hrow
    refine ⟨(row, row'), hrows, hpre, ?_⟩
    rw [(copyNode_root hc).2, hpre]
    rfl

lemma projectRoots_plain : ∀ root ∈ c.projectRoots, root.Plain := by
  intro root hroot
  obtain ⟨row, hrow, -, hid⟩ := mem_projectRoots.mp hroot
  rw [Root.Plain, ← hid]
  exact isPart_newUiId (mem_map_of_mem hrow)

lemma projectRoots_uiId : ∀ root ∈ c.projectRoots,
    ∀ root' ∈ c.projectRoots, root.uiId = root'.uiId → root = root' := by
  rintro ⟨oldPrefix, id⟩ hroot ⟨oldPrefix', id'⟩ hroot' rfl
  obtain ⟨row, hrow, hpre, hid⟩ := mem_projectRoots.mp hroot
  obtain ⟨row', hrow', hpre', hid'⟩ := mem_projectRoots.mp hroot'
  obtain rfl := eq_of_uiId hrow hrow' (newUiId_inj (.inl (mem_map_of_mem hrow))
    (.inl (mem_map_of_mem hrow')) (hid.trans hid'.symm))
  cases hpre.symm.trans hpre'
  rfl

lemma Copies.mem_files (hco : Copies c copied)
    (hf : ∀ file ∈ c.files.rows, file.Normal) {value : FileObject} :
    value ∈ copied.files.rows ↔ ∃ file ∈ c.files.rows,
      movedFile c.projectRoots file = some value := by
  have hp : (c.nodes.filterMap fun row =>
      (c.copiedNode row).bind Prod.snd) = c.projectRoots.map Root.pair := by
    rw [Copying.projectRoots, map_filterMap]
    refine filterMap_congr fun row hrow => ?_
    obtain ⟨row', pair, -, hc⟩ := hco.exists_copy hrow
    rw [hc, Option.bind_some, (copyNode_root hc).1, Copying.rootOf, Option.map_map]
    rfl
  exact mem_copied projectRoots_plain projectRoots_uiId hf (hp ▸ hco.files)

variable {root root' : Root}

lemma copyOf_move (hroot : root.Plain) (hfile : file.Normal) (h : root.Matches file) :
    CopyOf root.rootPrefix root.pair.2 file (root.move file) := by
  refine ⟨?_, rfl⟩
  rw [root.parts_move hroot hfile h.1, root.pathParts_pair_of_plain hroot h.1]
  rfl

lemma eq_of_copyOf (hroot : root.Plain) (hroot' : root'.Plain) (hfile' : file'.Normal)
    (hids : root.uiId = root'.uiId → root = root') (hc : Covers root.rootPrefix file)
    (h' : root'.Matches file')
    (h : CopyOf root.rootPrefix root.pair.2 file (root'.move file')) :
    root = root' ∧ file.parts = file'.parts := by
  obtain ⟨hp, -⟩ := h
  rw [root'.parts_move hroot' hfile' h'.1] at hp
  obtain ⟨tail, ht⟩ := root.pathParts_pair hroot
  have hid : root.uiId = root'.uiId := by
    rw [ht] at hp
    have hsnd := (List.cons.inj (List.cons.inj hp).2).1
    exact String.toList_inj.mp hsnd.symm
  obtain rfl := hids hid
  rw [root.pathParts_pair_of_plain hroot h'.1] at hp
  exact Root.movedParts_inj ⟨h'.1, hc⟩ h' hp.symm fun _ => rfl

lemma Copies.carried_iff (hco : Copies c copied) (hf : ∀ file ∈ c.files.rows, file.Normal) :
    FilesCarried c copied ↔ ∀ root ∈ c.projectRoots,
      ∀ file ∈ c.files.rows, Covers root.rootPrefix file →
        firstMatch c.projectRoots file = some root := by
  have hp : ∀ root ∈ c.projectRoots, root.Plain := projectRoots_plain
  constructor
  · intro h root hroot file hfile hc
    obtain ⟨rows, hrows, hold, hnew⟩ := hco.rootPrefixes.mpr ⟨root, hroot, rfl, rfl⟩
    obtain ⟨newPrefix, hpre, hall⟩ := h.all rows hrows root.rootPrefix hold
    cases hnew.symm.trans hpre
    obtain ⟨copy, hcopy, hof⟩ := hall file hfile hc
    obtain ⟨file', hfile', hm⟩ := (hco.mem_files hf).mp hcopy
    obtain ⟨root', hfir, rfl⟩ := Option.map_eq_some_iff.mp hm
    obtain ⟨hroot', hmat⟩ := firstMatch_some hfir
    obtain ⟨rfl, hpar⟩ := eq_of_copyOf (hp root hroot) (hp root' hroot')
      (hf file' hfile') (projectRoots_uiId root hroot root' hroot') hc hmat hof
    have hkey := eq_of_parts (hf file hfile) (hf file' hfile') hpar
    obtain rfl := eq_of_clash hfile hfile' hkey
    exact hfir
  · intro h
    constructor
    · intro rows hrows oldPrefix hold
      obtain ⟨hrow, pair, hcopy⟩ := hco.of_mem_zip hrows
      have hroot : ⟨oldPrefix, c.newUiId rows.1.uiId⟩ ∈ c.projectRoots :=
        mem_projectRoots.mpr ⟨rows.1, hrow, hold, rfl⟩
      have hnew := (copyNode_root hcopy).2
      rw [Option.mem_def.mp hold] at hnew
      refine ⟨_, hnew, fun file hfile hc => ?_⟩
      have hfir := h _ hroot file hfile hc
      have hm : movedFile c.projectRoots file = some _ :=
        Option.map_eq_some_iff.mpr ⟨_, hfir, rfl⟩
      exact ⟨_, (hco.mem_files hf).mpr ⟨file, hfile, hm⟩,
        copyOf_move (hp _ hroot) (hf file hfile) (firstMatch_some hfir).2⟩
    · intro copy hcopy
      obtain ⟨file, hfile, hm⟩ := (hco.mem_files hf).mp hcopy
      obtain ⟨root, hroot, hmat, rfl⟩ := movedFile_some hm
      obtain ⟨rows, hrows, hold, hnew⟩ := hco.rootPrefixes.mpr ⟨root, hroot, rfl, rfl⟩
      exact ⟨rows, hrows, root.rootPrefix, hold, root.pair.2, hnew, file, hfile, hmat.2,
        copyOf_move (hp root hroot) (hf file hfile) hmat⟩

theorem filesCarried_iff_rootsApart (hfiles : ∀ file ∈ c.files.rows, file.Normal)
    (h : c.copyProject = some copied) :
    FilesCarried c copied ↔ RootsApart c := by
  rw [(copies_of_copyProject h).carried_iff hfiles]
  constructor
  · intro hfirst file hfile row hrow oldPrefix hold hcovers
    have hroot := hfirst _ (mem_projectRoots.mpr ⟨row, hrow, hold, rfl⟩) file hfile hcovers
    refine ⟨(firstMatch_some hroot).2.1, fun other hother otherPrefix hpre hcovers' => ?_⟩
    have hroot' := hfirst _ (mem_projectRoots.mpr ⟨other, hother, hpre, rfl⟩) file hfile hcovers'
    exact newUiId_inj (.inl (mem_map_of_mem hother)) (.inl (mem_map_of_mem hrow))
      (congrArg Root.uiId (Option.some.inj (hroot'.symm.trans hroot)))
  · intro happart root hroot file hfile hcovers
    obtain ⟨row, hrow, hold, hid⟩ := mem_projectRoots.mp hroot
    obtain ⟨hplain, hone⟩ := happart file hfile row hrow _ hold hcovers
    have hsome : (firstMatch c.projectRoots file).isSome := by
      rw [firstMatch, List.find?_isSome]
      exact ⟨root, hroot, decide_eq_true ⟨hplain, hcovers⟩⟩
    obtain ⟨root', hfirst⟩ := Option.isSome_iff_exists.mp hsome
    obtain ⟨hroot', hmatch⟩ := firstMatch_some hfirst
    obtain ⟨row', hrow', hold', hid'⟩ := mem_projectRoots.mp hroot'
    have hsame := hone row' hrow' _ hold' hmatch.2
    rw [hfirst, projectRoots_uiId root' hroot' root hroot (by rw [← hid', ← hid, hsame])]

end

def readerNode (id rootPrefix : String) : NodeRow where
  uiId := id
  type := "simpleinputnode"
  name := "LoadCSV"
  inputValues := Dict.empty.set "connection" (some (.const (.obj
    [("type", .str "dvt_service_files"), ("properties", .obj [("root_prefix", .str rootPrefix)])])))

def readersCopying (secondPrefix : String) : Copying where
  nodes := [readerNode "a" "node-inputs/a/file", readerNode "b" secondPrefix]
  edges := []
  subgraphs := []
  files := ⟨[{ parentPath := "node-inputs/a/file".toList, name := "data.csv".toList }],
    pairwise_singleton _ _⟩
  nodup_nodes := by
    change ["a", "b"].Nodup
    decide
  nodup_subgraphs := nodup_nil
  builtins := sampleBuiltins
  organizationId := "org"
  uuids := sampleUuids

theorem filesCarried_readersProject : ∃ copied,
    (readersCopying "node-inputs/b/file").copyProject = some copied ∧
      FilesCarried (readersCopying "node-inputs/b/file") copied := by
  obtain ⟨copied, hcopy⟩ := Option.isSome_iff_exists.mp (by decide +kernel :
    (readersCopying "node-inputs/b/file").copyProject.isSome)
  refine ⟨copied, hcopy, (filesCarried_iff_rootsApart (by decide +kernel) hcopy).mpr ?_⟩
  rw [RootsApart]
  decide +kernel

theorem not_filesCarried_readersProject : ∃ copied,
    (readersCopying "node-inputs/a/file").copyProject = some copied ∧
      ¬ FilesCarried (readersCopying "node-inputs/a/file") copied := by
  obtain ⟨copied, hcopy⟩ := Option.isSome_iff_exists.mp (by decide +kernel :
    (readersCopying "node-inputs/a/file").copyProject.isSome)
  refine ⟨copied, hcopy, fun hcarried => ?_⟩
  have hfirst := ((copies_of_copyProject hcopy).carried_iff (by decide +kernel)).mp hcarried
    ⟨"node-inputs/a/file".toList, "node_a"⟩ (by decide +kernel)
    { parentPath := "node-inputs/a/file".toList, name := "data.csv".toList } (by decide +kernel)
    (by decide +kernel)
  revert hfirst
  decide +kernel

end Dvt.Projects
