import Dvt.ServiceFiles.Client

/-! What each call of the client does to the table. -/

namespace Dvt.ServiceFiles

open Library List Client FileRecord Table
open Projects (Text FileObject IsPart pathParts columnsFit)

def FileRecord.parts (row : FileRecord) : List Text := row.toFileObject.parts

def FileRecord.Normal (row : FileRecord) : Prop :=
  joinSegments '/' (pathParts row.parentPath) = row.parentPath ∧ ∀ part ∈ row.parts, IsName part

def InProject (organizationId projectId : String) (row : FileRecord) : Prop :=
  row.organizationId = organizationId ∧ row.projectId = projectId

def Client.Has (c : Client) (store : Store) (path : List Text) (isDir : Bool) : Prop :=
  ∃ row ∈ store.rows, c.owns row = true ∧ row.isDir = isDir ∧ row.parts = path

section

variable {c : Client} {store store' : Store} {row : FileRecord} {id : String}
  {f : FileRecord → FileRecord}

lemma Client.owns_iff : c.owns row = true ↔ InProject c.organizationId c.projectId row := by
  simp [owns, InProject]

lemma FileRecord.parts_eq (row : FileRecord) : row.parts = pathParts row.parentPath ++ [row.name] :=
  rfl

lemma FileRecord.parts_of_join {parts : List Text} (h : row.parentPath = joinSegments '/' parts)
    (hp : ∀ part ∈ parts, IsPart part) : row.parts = parts ++ [row.name] := by
  rw [row.parts_eq, h, Projects.pathParts_joinSegments hp]

lemma FileRecord.normal_of_join {parts : List Text} (h : row.parentPath = joinSegments '/' parts)
    (hp : ∀ part ∈ parts ++ [row.name], IsName part) : row.Normal := by
  have hj : pathParts row.parentPath = parts := by
    rw [h]
    exact Projects.pathParts_joinSegments fun part hpart =>
      (hp part (mem_append_left _ hpart)).1
  refine ⟨by rw [hj, h], ?_⟩
  rw [row.parts_eq, hj]
  exact hp

lemma isKey_id : Table.IsKey recordSchema FileRecord.id := fun _ _ h => .inl h

lemma isKey_key : Table.IsKey recordSchema FileRecord.key := fun _ _ h => .inr h

lemma insertRow_eq_ok (h : store.insertRow row = .ok store') :
    store'.rows = store.rows ++ [row] := by
  rw [Store.insertRow] at h
  split at h
  · split at h
    · next hi =>
      cases h
      exact rows_insert hi
    · cases h
  · cases h

lemma updateRow_eq_ok (h : store.updateRow id f = .ok store') :
    store'.rows = store.rows.map fun row => if row.id = id then f row else row := by
  rw [Store.updateRow] at h
  split at h
  · split at h
    · next hc =>
      cases h
      rw [Table.change] at hc
      split at hc <;> cases hc
      rfl
    · cases h
  · cases h

lemma mem_deleteRow {other : FileRecord} (hrow : row ∈ store.rows) :
    other ∈ (store.deleteRow row.id).rows ↔ other ∈ store.rows ∧ other ≠ row := by
  rw [Store.deleteRow, rows_delete, mem_filter]
  refine and_congr_right fun ho => ?_
  rw [Bool.not_eq_true', decide_eq_false_iff_not]
  exact not_congr ⟨fun h => eq_of_key isKey_id ho hrow h, fun h => h ▸ rfl⟩

lemma selectEntry_eq_some {parentPath name : Text} :
    c.selectEntry store parentPath name = some row ↔
      row ∈ store.rows ∧ c.owns row = true ∧ row.parentPath = parentPath ∧ row.name = name := by
  rw [selectEntry, lookup_eq_some isKey_key, FileRecord.key]
  simp only [Prod.mk.injEq, owns, decide_eq_true_eq, and_assoc]

lemma selectEntry_eq_none {parentPath name : Text} : c.selectEntry store parentPath name = none ↔
      ∀ row ∈ store.rows, c.owns row = true → row.parentPath = parentPath → row.name ≠ name := by
  rw [selectEntry, lookup_eq_none]
  refine forall₂_congr fun row _ => ?_
  simp only [key, Ne, Prod.mk.injEq, owns, decide_eq_true_eq, not_and, and_imp]

end

section

variable {c : Client} {path filename : Option Text} {parent name text : Text}

def Client.rootParts (c : Client) : List Text := pathParts c.rootPrefix

lemma scopedPath_eq_ok : c.scopedPath path filename = .ok text ↔
    (∀ part ∈ c.rootParts ++ partsOf path ++ partsOf filename, IsName part) ∧
      text = joinSegments '/' (c.rootParts ++ partsOf path ++ partsOf filename) := by
  have hp : [some c.rootPrefix, path, filename].flatMap partsOf =
      c.rootParts ++ partsOf path ++ partsOf filename := by
    simp [partsOf, rootParts]
  rw [scopedPath, joinPath_eq_ok, hp]

lemma splitPath_eq_ok (h : splitPath text = .ok (parent, name)) :
    ∃ parts, (∀ part ∈ parts ++ [name], IsName part) ∧ parent = joinSegments '/' parts ∧
      pathParts text = parts ++ [name] := by
  obtain ⟨_, hn, -⟩ := bind_eq_ok.mp h
  obtain ⟨hnam, rfl⟩ := normalizePath_eq_ok.mp hn
  have hp : ∀ part ∈ pathParts text, IsName part := hnam
  have hj : normalizePath (some (joinSegments '/' (pathParts text))) =
      .ok (joinSegments '/' (pathParts text)) := by
    rw [normalizePath_eq_ok, partsOf_join fun part hpart => (hp part hpart).1]
    exact ⟨hp, rfl⟩
  have heq : splitPath text = splitPath (joinSegments '/' (pathParts text)) := by
    rw [splitPath, splitPath, hn, hj]
    rfl
  rw [heq] at h
  rcases eq_nil_or_concat (pathParts text) with hnil | ⟨parts, last, hl⟩
  · rw [hnil] at h
    cases h
  · rw [concat_eq_append] at hl
    rw [hl] at h hp
    rw [splitPath_join hp] at h
    cases h
    exact ⟨parts, hp, rfl, hl⟩

lemma parentAndName_eq_ok (h : c.parentAndName path filename = .ok (parent, name)) :
    ∃ parts, (∀ part ∈ parts ++ [name], IsName part) ∧ parent = joinSegments '/' parts ∧
      c.rootParts ++ partsOf path ++ partsOf filename = parts ++ [name] := by
  obtain ⟨text, ht, hs⟩ := bind_eq_ok.mp h
  obtain ⟨hn, rfl⟩ := scopedPath_eq_ok.mp ht
  rcases eq_nil_or_concat (c.rootParts ++ partsOf path ++ partsOf filename) with
    hnil | ⟨parts, last, hl⟩
  · rw [hnil] at hs
    cases hs
  · rw [concat_eq_append] at hl
    rw [hl] at hn hs
    rw [splitPath_join hn] at hs
    cases hs
    exact ⟨parts, hn, rfl, hl⟩

lemma joinPath_pair {parts : List Text} (h : ∀ part ∈ parts ++ [name], IsName part) :
    joinPath [some (joinSegments '/' parts), some name] = .ok (joinSegments '/' (parts ++ [name])) := by
  have hname : joinSegments '/' [name] = name := by simp [joinSegments]
  have hp : [some (joinSegments '/' parts), some name].flatMap partsOf = parts ++ [name] := by
    have hl : partsOf (some (joinSegments '/' [name])) = [name] :=
      partsOf_join fun part hpart => (h part (mem_append_right _ hpart)).1
    rw [hname] at hl
    simp only [flatMap_cons, flatMap_nil, append_nil, hl]
    rw [partsOf_join fun part hpart => (h part (mem_append_left _ hpart)).1]
  rw [joinPath_eq_ok, hp]
  exact ⟨h, rfl⟩

end

lemma forall_mem_of_concat {parts : List Text} {name : Text} {P : Text → Prop}
    (h : ∀ part ∈ parts ++ [name], P part) : ∀ part ∈ parts, P part :=
  fun part hpart => h part (mem_append_left _ hpart)

variable {row : FileRecord}

section

variable {builtins : Builtins} {c : Client} {store store' : Store}

structure Ensured (c : Client) (path : List Text) (store store' : Store) : Prop where
  created : ∃ created, store'.rows = store.rows ++ created ∧ ∀ row ∈ created,
    c.owns row = true ∧ row.isDir = true ∧ row.Normal ∧ row.parts <+: path
  dirs : ∀ q, q <+: path → q ≠ [] → c.Has store' q true

variable {path : List Text}

lemma Ensured.subset (h : Ensured c path store store') : store.rows ⊆ store'.rows := by
  obtain ⟨created, hrows, -⟩ := h.created
  rw [hrows]
  exact subset_append_left _ _

lemma Ensured.mem_or (h : Ensured c path store store')
    (hrow : row ∈ store'.rows) : row ∈ store.rows ∨
      c.owns row = true ∧ row.isDir = true ∧ row.Normal ∧ row.parts <+: path := by
  obtain ⟨created, hrows, hc⟩ := h.created
  rw [hrows, mem_append] at hrow
  exact hrow.imp_right (hc row)

lemma ensured_nil (c : Client) (store : Store) : Ensured c [] store store where
  created := ⟨[], by simp, by simp⟩
  dirs := fun _ hq hne => absurd (prefix_nil.mp hq) hne

variable {part : Text} {mid : Store}

lemma Ensured.step (h : Ensured c path store mid)
    (hstep : mid.rows = store'.rows ∨ ∃ row, store'.rows = mid.rows ++ [row] ∧ c.owns row = true ∧
      row.isDir = true ∧ row.Normal ∧ row.parts = path ++ [part])
    (hdir : c.Has store' (path ++ [part]) true) : Ensured c (path ++ [part]) store store' := by
  obtain ⟨created, hrows, hc⟩ := h.created
  have hsub : mid.rows ⊆ store'.rows := by
    rcases hstep with heq | ⟨row, heq, -⟩
    · rw [heq]
      exact List.Subset.refl _
    · rw [heq]
      exact subset_append_left _ _
  have hold : ∀ row ∈ created, c.owns row = true ∧ row.isDir = true ∧ row.Normal ∧
      row.parts <+: path ++ [part] := by
    intro row hrow
    obtain ⟨howns, hisdir, hn, hp⟩ := hc row hrow
    exact ⟨howns, hisdir, hn, hp.trans (prefix_append _ _)⟩
  refine ⟨?_, fun q hq hne => ?_⟩
  · rcases hstep with heq | ⟨row, heq, howns, hisdir, hn, hp⟩
    · exact ⟨created, heq ▸ hrows, hold⟩
    · refine ⟨created ++ [row], by rw [heq, hrows, append_assoc], ?_⟩
      intro other ho
      rcases mem_append.mp ho with ho | ho
      · exact hold other ho
      · obtain rfl := mem_singleton.mp ho
        exact ⟨howns, hisdir, hn, hp ▸ prefix_rfl⟩
  · rcases prefix_concat_iff.mp hq with rfl | hq
    · exact hdir
    · obtain ⟨row, hrow, hr⟩ := h.dirs q hq hne
      exact ⟨row, hsub hrow, hr⟩

lemma next_eq_join {current : List Text} (h : ∀ part ∈ current, IsPart part) :
    (if joinSegments '/' current = [] then part else joinSegments '/' current ++ '/' :: part) =
      joinSegments '/' (current ++ [part]) := by
  have hpart : joinSegments '/' [part] = part := by simp [joinSegments]
  by_cases hnil : current = []
  · rw [if_pos (by rw [hnil]; rfl), hnil, nil_append, hpart]
  · rw [if_neg ((joinSegments_eq_nil fun part hpart => (h part hpart).1).not.mpr hnil),
      joinSegments_append hnil (cons_ne_nil _ _), hpart]

variable {parts : List Text}

lemma ensured_insert (hnam : ∀ part' ∈ path ++ [part], IsName part') (h : Ensured c path store mid)
    (hi : mid.insertRow (c.directory builtins mid (joinSegments '/' path) part) = .ok store') :
    Ensured c (path ++ [part]) store store' := by
  have hrows := insertRow_eq_ok hi
  have hn : (c.directory builtins mid (joinSegments '/' path) part).Normal :=
    normal_of_join rfl hnam
  have hp : (c.directory builtins mid (joinSegments '/' path) part).parts = path ++ [part] :=
    parts_of_join rfl fun part' hpart => (hnam part' (mem_append_left _ hpart)).1
  have howns : c.owns (c.directory builtins mid (joinSegments '/' path) part) = true := by
    simp [owns, directory]
  refine h.step (.inr ⟨_, hrows, howns, rfl, hn, hp⟩) ?_
  exact ⟨_, hrows ▸ mem_append_right _ mem_cons_self, howns, rfl, hp⟩

lemma ensured_found (hn : ∀ part' ∈ path ++ [part], IsName part') (h : Ensured c path store mid)
    (hs : c.selectEntry mid (joinSegments '/' path) part = some row)
    (hdir : row.isDir = true) : Ensured c (path ++ [part]) store mid := by
  obtain ⟨hrow, howns, hparent, rfl⟩ := selectEntry_eq_some.mp hs
  refine h.step (.inl rfl) ⟨row, hrow, howns, hdir, ?_⟩
  exact parts_of_join hparent fun part hpart =>
    (hn part (mem_append_left _ hpart)).1

lemma ensureDirFrom_spec {current : List Text}
    (hn : ∀ part ∈ current ++ parts, IsName part) (h : Ensured c current store mid)
    (he : c.ensureDirFrom builtins (joinSegments '/' current) parts mid = .ok store') :
    Ensured c (current ++ parts) store store' := by
  induction parts generalizing current mid with
  | nil =>
    cases he
    rw [append_nil]
    exact h
  | cons part parts ih =>
    have hnext : ∀ part' ∈ current ++ [part], IsName part' := by
      intro part' hpart'
      refine hn part' ?_
      rw [append_cons]
      exact mem_append_left _ hpart'
    rw [ensureDirFrom, next_eq_join fun part hpart =>
      (hnext part (mem_append_left _ hpart)).1] at he
    rw [append_cons] at hn ⊢
    split at he
    · split at he
      · cases he
      · next hi => exact ih hn (ensured_insert hnext h hi) he
    · next existing hs =>
      split at he
      · next hdir => exact ih hn (ensured_found hnext h hs hdir) he
      · cases he

lemma ensureDir_spec (hn : ∀ part ∈ parts, IsName part)
    (h : c.ensureDir builtins (joinSegments '/' parts) store = .ok store') :
    Ensured c parts store store' := by
  rw [ensureDir, segments_joinSegments fun part hpart => (hn part hpart).1.1] at h
  exact ensureDirFrom_spec hn (ensured_nil c store) h

end

section

variable {c : Client} {store store' : Store}

lemma find?_id {rows : List FileRecord} (hn : (rows.map FileRecord.id).Nodup)
    (hrow : row ∈ rows) : rows.find? (fun r => r.id = row.id) = some row := by
  induction rows with
  | nil => cases hrow
  | cons first rest ih =>
    obtain ⟨hf, hr⟩ := nodup_cons.mp hn
    rcases mem_cons.mp hrow with rfl | hmem
    · simp
    · have hne : first.id ≠ row.id := fun h => hf (h ▸ mem_map_of_mem hmem)
      rw [List.find?_cons_of_neg (by simpa using hne), ih hr hmem]

lemma foldlM_updateRow {children : List FileRecord} {f : FileRecord → FileRecord → FileRecord}
    (hid : ∀ child row, (f child row).id = row.id) (hn : (children.map FileRecord.id).Nodup)
    (h : children.foldlM (fun store child => store.updateRow child.id (f child)) store =
      .ok store') :
    store'.rows = store.rows.map fun row =>
      (children.find? fun child => child.id = row.id).elim row fun child => f child row := by
  induction children generalizing store with
  | nil =>
    cases h
    simp
  | cons child children ih =>
    obtain ⟨hchild, hr⟩ := nodup_cons.mp hn
    obtain ⟨mid, hmid, hfold⟩ := foldlM_cons_ok.mp h
    rw [ih hr hfold, updateRow_eq_ok hmid, map_map]
    refine map_congr_left fun row _ => ?_
    by_cases hrow : row.id = child.id
    · have hnone : children.find? (fun other => other.id = row.id) = none := by
        rw [List.find?_eq_none]
        intro other ho heq
        exact hchild (hrow ▸ of_decide_eq_true heq ▸ mem_map_of_mem ho)
      have hf : (child :: children).find? (fun other => other.id = row.id) = some child :=
        List.find?_cons_of_pos (by simpa using hrow.symm)
      rw [Function.comp_apply, if_pos hrow, hid, hnone, hf]
      rfl
    · have hskip : (child :: children).find? (fun other => other.id = row.id) =
          children.find? (fun other => other.id = row.id) :=
        List.find?_cons_of_neg (by simpa using Ne.symm hrow)
      rw [Function.comp_apply, if_neg hrow, hskip]

def Client.movedRow (c : Client) (srcFullPath dstFullPath : Text) (row : FileRecord) : FileRecord :=
  if c.owns row ∧ below srcFullPath row.parentPath then
    { row with parentPath := relocate srcFullPath dstFullPath row.parentPath }
  else row

lemma moveChildren_eq_ok {srcFullPath dstFullPath : Text}
    (h : c.moveChildren srcFullPath dstFullPath store = .ok store') :
    store'.rows = store.rows.map (c.movedRow srcFullPath dstFullPath) := by
  have hids := nodup_keys isKey_id store
  have hn : ((store.select fun row => c.owns row ∧ below srcFullPath row.parentPath).map
      FileRecord.id).Nodup := hids.sublist (filter_sublist.map _)
  have hrows := foldlM_updateRow (f := fun child row =>
    { row with parentPath := relocate srcFullPath dstFullPath child.parentPath })
    (fun _ _ => rfl) hn h
  rw [hrows]
  refine map_congr_left fun row hrow => ?_
  rw [movedRow]
  split
  · next hsel =>
    rw [find?_id hn (mem_select.mpr ⟨hrow, decide_eq_true hsel⟩)]
    rfl
  · next hsel =>
    have hnone : (store.select fun row => c.owns row ∧ below srcFullPath row.parentPath).find?
        (fun child => child.id = row.id) = none := by
      rw [List.find?_eq_none]
      intro child hchild hid
      obtain ⟨hmem, hchild⟩ := mem_select.mp hchild
      obtain rfl := eq_of_key isKey_id hmem hrow (of_decide_eq_true hid)
      exact hsel (of_decide_eq_true hchild)
    rw [hnone]
    rfl

end

section

variable {builtins : Builtins} {c : Client} {store store' : Store}

def Client.pathOf (c : Client) (path filename : Option Text) : List Text :=
  c.rootParts ++ partsOf path ++ partsOf filename

variable {path filename : Option Text}

lemma mkdir_spec (h : c.mkdir builtins path filename store = .ok store') :
    Ensured c (c.pathOf path filename) store store' := by
  obtain ⟨fullPath, hp, h⟩ := bind_eq_ok.mp h
  obtain ⟨hn, rfl⟩ := scopedPath_eq_ok.mp hp
  rw [pathOf]
  generalize c.rootParts ++ partsOf path ++ partsOf filename = parts at *
  split at h
  · next hnil =>
    cases h
    rw [(joinSegments_eq_nil fun part hpart => (hn part hpart).1.1).mp hnil]
    exact ensured_nil c store
  · next hne =>
    rcases eq_nil_or_concat parts with rfl | ⟨parts, name, rfl⟩
    · exact absurd rfl hne
    · rw [concat_eq_append] at hn h ⊢
      rw [splitPath_join hn] at h
      obtain ⟨_, hspl, h⟩ := bind_eq_ok.mp h
      cases hspl
      obtain ⟨mid, hmid, h⟩ := bind_eq_ok.mp h
      have he := ensureDir_spec (forall_mem_of_concat hn) hmid
      split at h
      · exact ensured_insert hn he h
      · next existing hs =>
        split at h
        · next hdir =>
          cases h
          exact ensured_found hn he hs hdir
        · cases h

inductive Wrote (c : Client) (mid : Store) (parts : List Text) (name : Text) : Store → Prop
  | create {store' : Store} {row : FileRecord} (hrows : store'.rows = mid.rows ++ [row])
      (howns : c.owns row = true) (hparent : row.parentPath = joinSegments '/' parts)
      (hname : row.name = name) (hfile : row.isDir = false) : Wrote c mid parts name store'
  | overwrite {store' : Store} {row : FileRecord} {f : FileRecord → FileRecord}
      (hrow : row ∈ mid.rows) (howns : c.owns row = true)
      (hparent : row.parentPath = joinSegments '/' parts) (hname : row.name = name)
      (hkey : ∀ r, (f r).key = r.key) (hrows : store'.rows = mid.rows.map fun r =>
        if r.id = row.id then f r else r) : Wrote c mid parts name store'

lemma writeFile_spec {fullPath : Text} {content : List UInt8} {contentType : Option String}
    (h : c.writeFile builtins fullPath content contentType store = .ok store') :
    ∃ parts name mid, (∀ part ∈ parts ++ [name], IsName part) ∧
      pathParts fullPath = parts ++ [name] ∧ Ensured c parts store mid ∧
      Wrote c mid parts name store' := by
  obtain ⟨⟨parent, name⟩, hspl, h⟩ := bind_eq_ok.mp h
  obtain ⟨mid, hmid, h⟩ := bind_eq_ok.mp h
  obtain ⟨parts, hn, rfl, hp⟩ := splitPath_eq_ok hspl
  refine ⟨parts, name, mid, hn, hp, ensureDir_spec (forall_mem_of_concat hn) hmid, ?_⟩
  split at h
  · refine .create (insertRow_eq_ok h) ?_ rfl rfl rfl
    simp [owns, directory]
  · next existing hs =>
    obtain ⟨hrow, howns, hparent, hname⟩ := selectEntry_eq_some.mp hs
    refine .overwrite hrow howns hparent hname ?_ (updateRow_eq_ok h)
    exact fun _ => rfl

lemma remove_spec (h : c.remove path filename store = .ok store') :
    ∃ row ∈ store.rows, c.owns row = true ∧ row.isDir = false ∧
      row.parts = c.pathOf path filename ∧ store' = store.deleteRow row.id := by
  obtain ⟨⟨parent, name⟩, hspl, h⟩ := bind_eq_ok.mp h
  obtain ⟨parts, hn, rfl, hp⟩ := parentAndName_eq_ok hspl
  dsimp only at h
  split at h
  · obtain ⟨_, _, h⟩ := bind_eq_ok.mp h
    cases h
  · next row hs =>
    obtain ⟨hs, hfile⟩ := Option.filter_eq_some_iff.mp hs
    obtain ⟨hrow, howns, hparent, rfl⟩ := selectEntry_eq_some.mp hs
    cases h
    refine ⟨row, hrow, howns, by simpa using hfile, ?_, rfl⟩
    rw [pathOf, hp]
    exact parts_of_join hparent fun part hpart => (forall_mem_of_concat hn part hpart).1

lemma rmdir_spec (h : c.rmdir path filename store = .ok store') :
    ∃ row ∈ store.rows, c.owns row = true ∧ row.isDir = true ∧
      row.parts = c.pathOf path filename ∧ store' = store.deleteRow row.id ∧
      ∀ r ∈ store.rows, c.owns r = true → r.parentPath ≠ joinSegments '/' row.parts := by
  obtain ⟨⟨parent, name⟩, hspl, h⟩ := bind_eq_ok.mp h
  obtain ⟨parts, hn, rfl, hpath⟩ := parentAndName_eq_ok hspl
  dsimp only at h
  rw [joinPath_pair hn] at h
  obtain ⟨_, hj, hb⟩ := bind_eq_ok.mp h
  cases hj
  split at hb
  · cases hb
  · next he =>
    have hchildren := not_not.mp he
    split at hb
    · cases hb
    · next row hs =>
      obtain ⟨hs, hdir⟩ := Option.filter_eq_some_iff.mp hs
      obtain ⟨hrow, howns, hparent, rfl⟩ := selectEntry_eq_some.mp hs
      have hp : row.parts = parts ++ [row.name] := parts_of_join hparent
        fun part hpart => (forall_mem_of_concat hn part hpart).1
      refine ⟨row, hrow, howns, hdir, ?_, (Except.ok.inj hb).symm, ?_⟩
      · rw [pathOf, hpath, hp]
      · intro r hr hr' hpath'
        refine not_mem_nil (a := r) ?_
        rw [← hchildren, children, mem_select]
        exact ⟨hr, decide_eq_true ⟨hr', hp ▸ hpath'⟩⟩

def placedRow (id : String) (parentPath name : Text) (row : FileRecord) : FileRecord :=
  if row.id = id then { row with parentPath, name } else row

structure Renamed (c : Client) (src dst : List Text) (store mid : Store) (row : FileRecord)
    (store' : Store) : Prop where
  srcNames : ∀ part ∈ src, IsName part
  dstNames : ∀ part ∈ dst, IsName part
  nonempty : dst ≠ []
  ensured : Ensured c dst.dropLast store mid
  mem : row ∈ mid.rows
  owns : c.owns row = true
  normal : row.Normal
  source : row.parts = src
  free : ∀ r ∈ mid.rows, c.owns r = true → r.Normal → r.parts ≠ dst
  rows : ∃ name ∈ dst.getLast?, store'.rows =
    (mid.rows.map (placedRow row.id (joinSegments '/' dst.dropLast) name)).map
      (if row.isDir then c.movedRow (joinSegments '/' src) (joinSegments '/' dst) else id)

lemma rename_spec {srcPath srcFilename dstPath dstFilename : Option Text}
    (h : c.rename builtins srcPath srcFilename dstPath dstFilename store = .ok store') :
    ∃ mid row, Renamed c (c.pathOf srcPath srcFilename) (c.pathOf dstPath dstFilename) store mid
      row store' := by
  obtain ⟨⟨srcParent, srcName⟩, hsrc, h⟩ := bind_eq_ok.mp h
  obtain ⟨srcParts, hsn, rfl, hsp⟩ := parentAndName_eq_ok hsrc
  obtain ⟨⟨dstParent, dstName⟩, hdst, h⟩ := bind_eq_ok.mp h
  obtain ⟨dstParts, hdn, rfl, hdp⟩ := parentAndName_eq_ok hdst
  dsimp only at h
  rw [joinPath_pair hsn, joinPath_pair hdn] at h
  obtain ⟨_, hj, h⟩ := bind_eq_ok.mp h
  cases hj
  obtain ⟨_, hj, h⟩ := bind_eq_ok.mp h
  cases hj
  obtain ⟨mid, hmid, h⟩ := bind_eq_ok.mp h
  rw [pathOf, pathOf, hsp, hdp]
  split at h
  · obtain ⟨_, _, h⟩ := bind_eq_ok.mp h
    cases h
  · next row hs =>
    obtain ⟨hrow, howns, hparent, rfl⟩ := selectEntry_eq_some.mp hs
    split at h
    · obtain ⟨_, _, h⟩ := bind_eq_ok.mp h
      cases h
    · next hf =>
      obtain ⟨placed, hp, h⟩ := bind_eq_ok.mp h
      have hp := updateRow_eq_ok hp
      rw [Bool.not_eq_true, Option.isSome_eq_false_iff, Option.isNone_iff_eq_none,
        selectEntry_eq_none] at hf
      refine ⟨mid, row, hsn, hdn, by simp, ?_, hrow, howns,
        normal_of_join hparent hsn, parts_of_join hparent fun part hpart =>
          (forall_mem_of_concat hsn part hpart).1, ?_, dstName, by simp, ?_⟩
      · rw [dropLast_concat]
        exact ensureDir_spec (forall_mem_of_concat hdn) hmid
      · intro r hr hr' hn hpar
        obtain ⟨hi, hname⟩ := append_inj' (r.parts_eq.symm.trans hpar) rfl
        refine hf r hr hr' ?_ (singleton_inj.mp hname)
        rw [← hn.1, hi]
      · rw [dropLast_concat]
        split at h
        · next hdir =>
          rw [if_pos hdir, moveChildren_eq_ok h, hp]
          rfl
        · next hdir =>
          cases h
          rw [if_neg hdir, hp, map_id]
          rfl

end

end Dvt.ServiceFiles
