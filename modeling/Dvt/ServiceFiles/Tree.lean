import Dvt.ServiceFiles.Effects

/-! The service files form a tree, and which calls keep it one. -/

namespace Dvt.ServiceFiles

open Library List Client FileRecord Table
open Projects (Text IsPart pathParts)

variable {store store' : Store} {row : FileRecord} {c : Client} {rest : List Text} {o p : String}

section

variable (organizationId projectId : String) (store : Store)

def FileRecord.path (row : FileRecord) : Text := joinSegments '/' row.parts

def ParentsStored : Prop :=
  ∀ row ∈ store.rows, InProject organizationId projectId row → row.parentPath = [] ∨
    ∃ dir ∈ store.rows, InProject organizationId projectId dir ∧ dir.isDir = true ∧
      dir.path = row.parentPath

structure Tree : Prop where
  normal : ∀ row ∈ store.rows, InProject organizationId projectId row → row.Normal
  parents : ParentsStored organizationId projectId store

inductive Reachable : FileRecord → Prop
  | root {row : FileRecord} (hrow : row ∈ store.rows) (hin : InProject organizationId projectId row)
      (hroot : row.parentPath = []) : Reachable row
  | step {dir row : FileRecord} (hdir : Reachable dir) (hisdir : dir.isDir = true)
      (hrow : row ∈ store.rows) (hin : InProject organizationId projectId row)
      (hparent : row.parentPath = dir.path) : Reachable row

structure TreeShaped : Prop where
  unique : (store.rows.filter fun row => row.organizationId = organizationId ∧
    row.projectId = projectId).Pairwise fun a b => (a.parentPath, a.name) ≠ (b.parentPath, b.name)
  parents : ParentsStored organizationId projectId store
  files : ∀ row ∈ store.rows, InProject organizationId projectId row → ∀ file ∈ store.rows,
    InProject organizationId projectId file → file.isDir = false → file.parts <+: row.parts →
    row.parts = file.parts
  reachable : ∀ row ∈ store.rows, InProject organizationId projectId row →
    Reachable organizationId projectId store row

end

section

variable {dir : FileRecord}

lemma FileRecord.path_eq_parentPath (h : row.Normal) (hdir : dir.Normal) :
    dir.path = row.parentPath ↔ dir.parts = pathParts row.parentPath := by
  rw [path]
  constructor
  · intro hpath
    rw [← hpath, Projects.pathParts_joinSegments fun part hpart => (hdir.2 part hpart).1]
  · intro hp
    rw [hp, h.1]

lemma FileRecord.Normal.root_iff (h : row.Normal) :
    row.parentPath = [] ↔ pathParts row.parentPath = [] := by
  refine ⟨fun hnil => by rw [hnil]; rfl, fun hnil => ?_⟩
  rw [← h.1, hnil]
  rfl

lemma FileRecord.Normal.key_eq {other : FileRecord} (h : row.Normal) (h' : other.Normal)
    (hp : row.parts = other.parts) :
    row.parentPath = other.parentPath ∧ row.name = other.name := by
  obtain ⟨hparent, hname⟩ := append_inj' hp rfl
  exact ⟨by rw [← h.1, ← h'.1, hparent], singleton_inj.mp hname⟩

lemma tree_iff : Tree o p store ↔ (∀ row ∈ store.rows, InProject o p row → row.Normal) ∧
      ∀ row ∈ store.rows, InProject o p row → pathParts row.parentPath = [] ∨
        ∃ dir ∈ store.rows, InProject o p dir ∧ dir.isDir = true ∧
          dir.parts = pathParts row.parentPath := by
  constructor
  · intro h
    refine ⟨h.normal, fun row hrow hin => ?_⟩
    have hn := h.normal row hrow hin
    rcases h.parents row hrow hin with hroot | ⟨dir, hdir, hdin, hisdir, hpath⟩
    · exact .inl (hn.root_iff.mp hroot)
    · exact .inr ⟨dir, hdir, hdin, hisdir,
        (path_eq_parentPath hn (h.normal dir hdir hdin)).mp hpath⟩
  · rintro ⟨hn, hp⟩
    refine ⟨hn, fun row hrow hin => ?_⟩
    rcases hp row hrow hin with hroot | ⟨dir, hdir, hdin, hisdir, hpar⟩
    · exact .inl ((hn row hrow hin).root_iff.mpr hroot)
    · exact .inr ⟨dir, hdir, hdin, hisdir,
        (path_eq_parentPath (hn row hrow hin) (hn dir hdir hdin)).mpr hpar⟩

variable (h : Tree o p store)

include h

lemma Tree.eq_of_parts (hrow : row ∈ store.rows) (hin : InProject o p row)
    (hdir : dir ∈ store.rows) (hdin : InProject o p dir) (hp : row.parts = dir.parts) :
    row = dir := by
  obtain ⟨hparent, hname⟩ := (h.normal row hrow hin).key_eq (h.normal dir hdir hdin) hp
  refine eq_of_key isKey_key hrow hdir ?_
  rw [key, key, hin.1, hin.2, hdin.1, hdin.2, hparent, hname]

lemma Tree.dir_above {path : List Text} (hrow : row ∈ store.rows)
    (hin : InProject o p row) (hpath : path ≠ []) (hr : rest ≠ [])
    (hp : row.parts = path ++ rest) :
    ∃ dir ∈ store.rows, InProject o p dir ∧ dir.isDir = true ∧ dir.parts = path := by
  induction hlen : rest.length generalizing row rest with
  | zero => exact absurd (length_eq_zero_iff.mp hlen) hr
  | succ n ih =>
    obtain ⟨init, last, rfl⟩ := eq_nil_or_concat rest |>.resolve_left hr
    rw [concat_eq_append] at hp hlen
    rw [← append_assoc] at hp
    obtain ⟨hparent, -⟩ := append_inj' hp rfl
    rcases (tree_iff.mp h).2 row hrow hin with hroot | ⟨dir, hdir, hdin, hisdir, hd⟩
    · rw [hparent] at hroot
      exact absurd (append_eq_nil_iff.mp hroot).1 hpath
    · rw [hparent] at hd
      by_cases hi : init = []
      · rw [hi, append_nil] at hd
        exact ⟨dir, hdir, hdin, hisdir, hd⟩
      · refine ih hdir hdin hi hd ?_
        simpa using hlen

lemma Tree.reachable (hrow : row ∈ store.rows) (hin : InProject o p row) :
    Reachable o p store row := by
  induction hlen : row.parts.length using Nat.strong_induction_on generalizing row with
  | h n ih =>
    rcases h.parents row hrow hin with hroot | ⟨dir, hdir, hdin, hisdir, hp⟩
    · exact .root hrow hin hroot
    · refine .step (ih dir.parts.length ?_ hdir hdin rfl) hisdir hrow hin hp.symm
      rw [path_eq_parentPath (h.normal row hrow hin) (h.normal dir hdir hdin)] at hp
      rw [← hlen, row.parts_eq, hp]
      simp

lemma Tree.shaped : TreeShaped o p store where
  unique := by
    refine (store.unique.filter _).imp_of_mem fun {a b} ha hb hc heq => hc (.inr ?_)
    have ha := of_decide_eq_true (mem_filter.mp ha).2
    have hb := of_decide_eq_true (mem_filter.mp hb).2
    obtain ⟨hparent, hname⟩ := Prod.mk.inj heq
    change a.key = b.key
    rw [key, key, ha.1, ha.2, hb.1, hb.2, hparent, hname]
  parents := h.parents
  files := by
    intro row hrow hin file hfile hfin hi hpre
    obtain ⟨rest, hr⟩ := hpre
    by_cases hnil : rest = []
    · rw [← hr, hnil, append_nil]
    · obtain ⟨dir, hdir, hdin, hisdir, hp⟩ := h.dir_above hrow hin
        (by simp [file.parts_eq]) hnil hr.symm
      obtain rfl := h.eq_of_parts hdir hdin hfile hfin hp
      rw [hisdir] at hi
      cases hi
  reachable := fun row hrow hin => h.reachable hrow hin

end

section

variable {other : FileRecord}

variable (h : row.key = other.key)

include h

lemma owns_of_key : c.owns row = c.owns other := by
  obtain ⟨horg, hp, -⟩ := Prod.mk.inj h |>.imp_right Prod.mk.inj
  rw [owns, owns, horg, hp]

lemma FileRecord.parentPath_of_key : row.parentPath = other.parentPath :=
  (Prod.mk.inj (Prod.mk.inj (Prod.mk.inj h).2).2).1

lemma FileRecord.parts_of_key : row.parts = other.parts := by
  have hname := (Prod.mk.inj (Prod.mk.inj (Prod.mk.inj h).2).2).2
  rw [row.parts_eq, other.parts_eq, parentPath_of_key h, hname]

end

lemma like_append {pattern text : List Char} (h : like pattern text = true) (front : List Char) :
    like (front ++ pattern) (front ++ text) = true := by
  induction front with
  | nil => exact h
  | cons c front ih =>
    rw [cons_append, cons_append, like]
    split
    · rw [any_eq_true]
      exact ⟨front ++ text, by simp [List.tails], ih⟩
    · simp [ih]

lemma like_percent (text : List Char) : like ['%'] text = true := by
  unfold like
  rw [if_pos rfl, any_eq_true]
  exact ⟨[], (mem_tails _ _).mpr nil_suffix, rfl⟩

lemma below_join {src : List Text} (hsrc : src ≠ []) :
    below (joinSegments '/' src) (joinSegments '/' (src ++ rest)) = true := by
  rw [below]
  by_cases hr : rest = []
  · simp [hr]
  · rw [joinSegments_append hsrc hr, Bool.or_eq_true]
    exact .inr (like_append (like_append (like_percent _) ['/']) _)

variable {mid : Store}

def Client.IsTree (c : Client) (store : Store) : Prop :=
  ServiceFiles.Tree c.organizationId c.projectId store

lemma Client.isTree_iff : c.IsTree store ↔ (∀ row ∈ store.rows, c.owns row = true → row.Normal) ∧
    ∀ row ∈ store.rows, c.owns row = true → pathParts row.parentPath = [] ∨
      c.Has store (pathParts row.parentPath) true := by
  simp only [Client.IsTree, ServiceFiles.tree_iff, Client.Has, owns_iff]

def Client.Apart (c : Client) (store store' : Store) : Prop :=
  ∀ row, c.owns row = false → (row ∈ store'.rows ↔ row ∈ store.rows)

lemma Client.Apart.tree (h : c.Apart store store') (ht : Tree o p store)
    (hne : (o, p) ≠ (c.organizationId, c.projectId)) : Tree o p store' := by
  have hmem : ∀ row, InProject o p row → (row ∈ store'.rows ↔ row ∈ store.rows) := by
    intro row hin
    refine h row (Bool.eq_false_iff.mpr fun howns => hne ?_)
    obtain ⟨horg, hp⟩ := owns_iff.mp howns
    rw [← horg, ← hp, hin.1, hin.2]
  refine ⟨fun row hrow hin => ht.normal row ((hmem row hin).mp hrow) hin, ?_⟩
  intro row hrow hin
  refine (ht.parents row ((hmem row hin).mp hrow) hin).imp_right ?_
  rintro ⟨dir, hdir, hdin, hr⟩
  exact ⟨dir, (hmem dir hdin).mpr hdir, hdin, hr⟩

variable {path : List Text}

lemma Client.Has.mono {isDir : Bool} (h : c.Has store path isDir)
    (hsub : store.rows ⊆ store'.rows) : c.Has store' path isDir := by
  obtain ⟨row, hrow, hr⟩ := h
  exact ⟨row, hsub hrow, hr⟩

lemma Ensured.tree (h : Ensured c path store store') (ht : c.IsTree store) : c.IsTree store' := by
  obtain ⟨hn, hp⟩ := isTree_iff.mp ht
  refine isTree_iff.mpr ⟨fun row hrow howns => ?_, fun row hrow howns => ?_⟩
  · rcases h.mem_or hrow with hold | ⟨-, -, hnew, -⟩
    · exact hn row hold howns
    · exact hnew
  · rcases h.mem_or hrow with hold | ⟨-, -, -, hpre⟩
    · exact (hp row hold howns).imp_right fun hdir => hdir.mono h.subset
    · by_cases hroot : pathParts row.parentPath = []
      · exact .inl hroot
      · exact .inr (h.dirs _ ((prefix_append _ _).trans hpre) hroot)

lemma Ensured.apart (h : Ensured c path store store') : c.Apart store store' := by
  intro row howns
  refine ⟨fun hrow => ?_, fun hrow => h.subset hrow⟩
  rcases h.mem_or hrow with hold | ⟨hnew, -⟩
  · exact hold
  · rw [howns] at hnew
    cases hnew

lemma Client.Apart.trans (h : c.Apart store mid) (h' : c.Apart mid store') : c.Apart store store' :=
  fun row howns => (h' row howns).trans (h row howns)

variable {f : FileRecord → FileRecord}

lemma apart_of_map (hrows : store'.rows = store.rows.map f)
    (howns : ∀ row ∈ store.rows, c.owns (f row) = c.owns row)
    (hk : ∀ row ∈ store.rows, c.owns row = false → f row = row) : c.Apart store store' := by
  intro row hrow
  rw [hrows, mem_map]
  constructor
  · rintro ⟨old, hold, rfl⟩
    rw [howns old hold] at hrow
    rwa [hk old hold hrow]
  · exact fun hmem => ⟨row, hmem, hk row hmem hrow⟩

variable {parts : List Text} {name : Text}

lemma Wrote.tree (h : Wrote c mid parts name store')
    (hn : ∀ part ∈ parts ++ [name], IsName part) (ht : c.IsTree mid)
    (hdir : parts = [] ∨ c.Has mid parts true)
    (he : ∀ row ∈ mid.rows, c.owns row = true → row.isDir = true → row.parts = parts ++ [name] →
      ∀ r ∈ mid.rows, c.owns r = true → pathParts r.parentPath ≠ row.parts) : c.IsTree store' := by
  obtain ⟨hnor, hp⟩ := isTree_iff.mp ht
  rw [isTree_iff]
  cases h with
  | @create new hrows howns hparent hname hfile =>
    subst hname
    have hsub : mid.rows ⊆ store'.rows := hrows ▸ subset_append_left _ _
    have hpar : pathParts new.parentPath = parts := by
      rw [hparent]
      exact Projects.pathParts_joinSegments fun part hpart =>
        (forall_mem_of_concat hn part hpart).1
    constructor
    · intro row hrow howns'
      rw [hrows, mem_append, mem_singleton] at hrow
      rcases hrow with hold | rfl
      · exact hnor row hold howns'
      · exact normal_of_join hparent hn
    · intro row hrow howns'
      rw [hrows, mem_append, mem_singleton] at hrow
      rcases hrow with hold | rfl
      · exact (hp row hold howns').imp_right fun h => h.mono hsub
      · rw [hpar]
        exact hdir.imp_right fun h => h.mono hsub
  | @overwrite row f hrow howns hparent hname hkey hrows =>
    subst hname
    have hs : ∀ r, (if r.id = row.id then f r else r).key = r.key := by
      intro r
      split
      · exact hkey r
      · rfl
    have hpar : row.parts = parts ++ [row.name] := parts_of_join hparent
      fun part hpart => (forall_mem_of_concat hn part hpart).1
    constructor
    · intro r' hr' howns'
      rw [hrows, mem_map] at hr'
      obtain ⟨r, hr, rfl⟩ := hr'
      rw [FileRecord.Normal, parts_of_key (hs r), parentPath_of_key (hs r)]
      exact hnor r hr (owns_of_key (hs r) ▸ howns')
    · intro r' hr' howns'
      rw [hrows, mem_map] at hr'
      obtain ⟨r, hr, rfl⟩ := hr'
      rw [owns_of_key (hs r)] at howns'
      rw [parentPath_of_key (hs r)]
      refine (hp r hr howns').imp_right ?_
      rintro ⟨dir, hdir, hdow, hisdir, hd⟩
      have hne : dir.id ≠ row.id := by
        intro hid
        obtain rfl := eq_of_key isKey_id hdir hrow hid
        exact he dir hdir hdow hisdir hpar r hr howns' hd.symm
      refine ⟨dir, ?_, hdow, hisdir, hd⟩
      rw [hrows, mem_map]
      exact ⟨dir, hdir, if_neg hne⟩

lemma Wrote.apart (h : Wrote c mid parts name store') : c.Apart mid store' := by
  cases h with
  | @create new hrows howns hparent hname hfile =>
    intro row hrow
    rw [hrows, mem_append, mem_singleton]
    refine ⟨fun h => h.resolve_right fun heq => ?_, .inl⟩
    rw [heq, howns] at hrow
    cases hrow
  | @overwrite row f hrow howns hparent hname hkey hrows =>
    refine apart_of_map hrows (fun r hr => ?_) fun r hr hr' => ?_
    · split
      · exact owns_of_key (hkey r)
      · rfl
    · refine if_neg fun hid => ?_
      rw [eq_of_key isKey_id hr hrow hid, howns] at hr'
      cases hr'

lemma deleteRow_tree (hrow : row ∈ store.rows) (ht : c.IsTree store)
    (hl : ∀ r ∈ store.rows, c.owns r = true → row.isDir = true →
      pathParts r.parentPath ≠ row.parts) : c.IsTree (store.deleteRow row.id) := by
  obtain ⟨hn, hp⟩ := isTree_iff.mp ht
  refine isTree_iff.mpr ⟨fun r hr => hn r ((mem_deleteRow hrow).mp hr).1, ?_⟩
  intro r hmem howns
  have hr := ((mem_deleteRow hrow).mp hmem).1
  refine (hp r hr howns).imp_right ?_
  rintro ⟨dir, hdir, hdow, hisdir, hd⟩
  refine ⟨dir, (mem_deleteRow hrow).mpr ⟨hdir, ?_⟩, hdow, hisdir, hd⟩
  rintro rfl
  exact hl r hr howns hisdir hd.symm

lemma deleteRow_apart (hrow : row ∈ store.rows) (howns : c.owns row = true) :
    c.Apart store (store.deleteRow row.id) := by
  intro r hr
  rw [mem_deleteRow hrow]
  refine ⟨fun h => h.1, fun h => ⟨h, ?_⟩⟩
  rintro rfl
  rw [howns] at hr
  cases hr

variable {src dst : List Text}

structure Relocates (c : Client) (src dst : List Text) (mid : Store) (row : FileRecord)
    (f : FileRecord → FileRecord) : Prop where
  source : ∃ name ∈ dst.getLast?,
    f row = { row with parentPath := joinSegments '/' dst.dropLast, name }
  stays : ∀ r ∈ mid.rows, r ≠ row →
    ¬ (row.isDir = true ∧ c.owns r = true ∧ src <+: pathParts r.parentPath) → f r = r
  moves : ∀ r ∈ mid.rows, r ≠ row → row.isDir = true → c.owns r = true → ∀ rest,
    pathParts r.parentPath = src ++ rest → f r = { r with parentPath := joinSegments '/' (dst ++ rest) }

def SelectsBelow (src : List Text) (parentPath : Text) : Prop :=
  below (joinSegments '/' src) parentPath = true → src <+: pathParts parentPath

lemma Renamed.relocates (h : Renamed c src dst store mid row store') (ht : c.IsTree mid)
    (hsrc : src ≠ [])
    (hs : row.isDir = true → ∀ r ∈ mid.rows, c.owns r = true → SelectsBelow src r.parentPath)
    (hp : row.isDir = true → below (joinSegments '/' src) (joinSegments '/' dst.dropLast) = false) :
    ∃ f, store'.rows = mid.rows.map f ∧ Relocates c src dst mid row f := by
  obtain ⟨name, hname, hrows⟩ := h.rows
  rw [map_map] at hrows
  refine ⟨_, hrows, ⟨name, hname, ?_⟩, ?_, ?_⟩
  · rw [Function.comp_apply, placedRow, if_pos rfl]
    split
    · next hdir =>
      rw [movedRow, if_neg]
      rintro ⟨-, hb⟩
      rw [hp hdir] at hb
      cases hb
    · rfl
  · intro r hr hne hstay
    have hid : r.id ≠ row.id := fun hid => hne (eq_of_key isKey_id hr h.mem hid)
    rw [Function.comp_apply, placedRow]
    split
    · next hdir =>
      rw [movedRow, if_neg]
      rintro ⟨howns, hb⟩
      exact hstay ⟨hdir, howns, hs hdir r hr howns hb⟩
    · rfl
  · intro r hr hne hdir howns rest hrest
    have hid : r.id ≠ row.id := fun hid => hne (eq_of_key isKey_id hr h.mem hid)
    have hparent : r.parentPath = joinSegments '/' (src ++ rest) := by
      rw [← hrest, ((isTree_iff.mp ht).1 r hr howns).1]
    rw [Function.comp_apply, placedRow, if_neg hid, if_pos hdir, movedRow, if_pos, relocate,
      hparent, ← joinSegments_replace hsrc h.nonempty]
    exact ⟨howns, hparent ▸ below_join hsrc⟩

lemma Relocates.parts_moves (h : Relocates c src dst mid row f)
    (hdst : ∀ part ∈ dst, IsName part) {r : FileRecord} (hr : r ∈ mid.rows) (hne : r ≠ row)
    (hdir : row.isDir = true) (howns : c.owns r = true) (hnor : r.Normal)
    (hrest : pathParts r.parentPath = src ++ rest) :
    (f r).Normal ∧ (f r).parts = dst ++ rest ++ [r.name] ∧ (f r).isDir = r.isDir ∧
      c.owns (f r) = true := by
  rw [h.moves r hr hne hdir howns rest hrest]
  have hn : ∀ part ∈ dst ++ rest ++ [r.name], IsName part := by
    have hold := hnor.2
    rw [r.parts_eq, hrest] at hold
    intro part hpart
    simp only [mem_append] at hpart hold
    rcases hpart with (hpart | hpart) | hpart
    · exact hdst part hpart
    · exact hold part (.inl (.inr hpart))
    · exact hold part (.inr hpart)
  exact ⟨normal_of_join rfl hn, parts_of_join rfl fun part hpart =>
    (forall_mem_of_concat hn part hpart).1, rfl, howns⟩

lemma Relocates.parts_source (h : Relocates c src dst mid row f)
    (hdst : ∀ part ∈ dst, IsName part) (howns : c.owns row = true) :
    (f row).Normal ∧ (f row).parts = dst ∧ (f row).isDir = row.isDir ∧ c.owns (f row) = true := by
  obtain ⟨name, hname, hrow⟩ := h.source
  have heq : dst = dst.dropLast ++ [name] := (dropLast_append_getLast? name hname).symm
  rw [hrow]
  have hn : ∀ part ∈ dst.dropLast ++ [name], IsName part := heq ▸ hdst
  refine ⟨normal_of_join rfl hn, ?_, rfl, howns⟩
  nth_rewrite 2 [heq]
  exact parts_of_join rfl fun part hpart => (forall_mem_of_concat hn part hpart).1

lemma Renamed.tree (h : Renamed c src dst store mid row store') (ht : c.IsTree mid)
    (hsrc : src ≠ []) (hdst : ¬ src <+: dst)
    (hrows : store'.rows = mid.rows.map f) (hf : Relocates c src dst mid row f) :
    c.IsTree store' := by
  obtain ⟨hn, hpar⟩ := isTree_iff.mp ht
  have hs := hf.parts_source h.dstNames h.owns
  have hmem : ∀ r ∈ mid.rows, f r ∈ store'.rows := fun r hr => hrows ▸ mem_map_of_mem hr
  -- a directory that is not below the source stays where it is
  have hk : ∀ path, ¬ src <+: path → c.Has mid path true → c.Has store' path true := by
    rintro path hpath ⟨dir, hdir, howns, hisdir, hp⟩
    have hne : dir ≠ row := by
      rintro rfl
      exact hpath (hp ▸ h.source ▸ prefix_rfl)
    have hstay : f dir = dir := by
      refine hf.stays dir hdir hne ?_
      rintro ⟨-, -, hpre⟩
      refine hpath (hp ▸ hpre.trans ?_)
      exact prefix_append _ _
    exact ⟨dir, hstay ▸ hmem dir hdir, howns, hisdir, hp⟩
  have hc : ∀ r ∈ mid.rows, r = row ∨
      (r ≠ row ∧ row.isDir = true ∧ c.owns r = true ∧ ∃ rest, pathParts r.parentPath = src ++ rest) ∨
      (f r = r ∧ ¬ (row.isDir = true ∧ c.owns r = true ∧ src <+: pathParts r.parentPath)) := by
    intro r hr
    by_cases hne : r = row
    · exact .inl hne
    · by_cases hm : row.isDir = true ∧ c.owns r = true ∧ src <+: pathParts r.parentPath
      · obtain ⟨hdir, howns, rest, hrest⟩ := hm
        exact .inr (.inl ⟨hne, hdir, howns, rest, hrest.symm⟩)
      · exact .inr (.inr ⟨hf.stays r hr hne hm, hm⟩)
  refine isTree_iff.mpr ⟨fun r' hr' howns' => ?_, fun r' hr' howns' => ?_⟩
  · rw [hrows, mem_map] at hr'
    obtain ⟨r, hr, rfl⟩ := hr'
    rcases hc r hr with rfl | ⟨hne, hdir, howns, rest, hrest⟩ | ⟨hstay, -⟩
    · exact hs.1
    · exact (hf.parts_moves h.dstNames hr hne hdir howns (hn r hr howns) hrest).1
    · rw [hstay] at howns' ⊢
      exact hn r hr howns'
  · rw [hrows, mem_map] at hr'
    obtain ⟨r, hr, rfl⟩ := hr'
    rcases hc r hr with rfl | ⟨hne, hdir, howns, rest, hrest⟩ | ⟨hstay, hm⟩
    · have hparent : pathParts (f r).parentPath = dst.dropLast := by
        have hp := hs.2.1
        rw [parts_eq] at hp
        rw [← hp, dropLast_concat]
      rw [hparent]
      by_cases hroot : dst.dropLast = []
      · exact .inl hroot
      · refine .inr (hk _ (fun hpre => hdst (hpre.trans <| dropLast_prefix dst)) ?_)
        exact h.ensured.dirs _ prefix_rfl hroot
    · obtain ⟨-, hp, -, -⟩ :=
        hf.parts_moves h.dstNames hr hne hdir howns (hn r hr howns) hrest
      have hparent : pathParts (f r).parentPath = dst ++ rest := by
        exact (append_inj' hp rfl).1
      rw [hparent]
      right
      by_cases hnil : rest = []
      · refine ⟨f row, hmem row h.mem, hs.2.2.2, hs.2.2.1.trans hdir, ?_⟩
        rw [hs.2.1, hnil, append_nil]
      · -- the directory of the entry is below the source as well
        obtain hroot | ⟨dir, hdmem, hd, hisdir, hdpa⟩ := hpar r hr howns
        · rw [hrest] at hroot
          exact absurd (append_eq_nil_iff.mp hroot).1 hsrc
        · rw [hrest] at hdpa
          obtain ⟨init, last, rfl⟩ := (eq_nil_or_concat rest).resolve_left hnil
          rw [concat_eq_append, ← append_assoc] at hdpa
          obtain ⟨hdpar, hl⟩ := append_inj' hdpa rfl
          have hdne : dir ≠ row := by
            rintro rfl
            have hlen := congrArg List.length (dir.parts_eq.symm.trans h.source)
            rw [hdpar] at hlen
            simp at hlen
          obtain ⟨-, hdmo, hsame, hd'⟩ := hf.parts_moves h.dstNames hdmem hdne hdir hd
            (hn dir hdmem hd) hdpar
          refine ⟨f dir, hmem dir hdmem, hd', hsame.trans hisdir, ?_⟩
          rw [hdmo, singleton_inj.mp hl, concat_eq_append, append_assoc]
    · rw [hstay] at howns' ⊢
      obtain hroot | hdir := hpar r hr howns'
      · exact .inl hroot
      · refine .inr (hk _ (fun hpre => ?_) hdir)
        obtain ⟨rest, hrest⟩ := id hpre
        have hp : r.parts = src ++ (rest ++ [r.name]) := by
          rw [r.parts_eq, ← hrest, append_assoc]
        obtain ⟨above, hamem, hain, hisdir, ha⟩ := ServiceFiles.Tree.dir_above ht hr
          (owns_iff.mp howns') hsrc (by simp) hp
        obtain rfl := ServiceFiles.Tree.eq_of_parts ht hamem hain h.mem
          (owns_iff.mp h.owns) (ha.trans h.source.symm)
        exact hm ⟨hisdir, howns', hpre⟩

lemma Relocates.apart (hf : Relocates c src dst mid row f)
    (hrows : store'.rows = mid.rows.map f) (howns : c.owns row = true) : c.Apart mid store' := by
  have hs : ∀ r ∈ mid.rows, c.owns r = false → f r = r := by
    intro r hr hr'
    refine hf.stays r hr ?_ ?_
    · rintro rfl
      rw [howns] at hr'
      cases hr'
    · rintro ⟨-, howns, -⟩
      rw [hr'] at howns
      cases howns
  refine apart_of_map hrows (fun r hr => ?_) hs
  by_cases hne : r = row
  · obtain ⟨name, -, hrow⟩ := hf.source
    rw [hne, hrow]
    rfl
  · by_cases hm : row.isDir = true ∧ c.owns r = true ∧ src <+: pathParts r.parentPath
    · obtain ⟨hdir, howns, rest, hrest⟩ := hm
      rw [hf.moves r hr hne hdir howns rest hrest.symm]
      rfl
    · rw [hf.stays r hr hne hm]

/-- The calls that keep the tree: a write over a directory finds it empty; a rename moves no directory
below itself, and its pattern selects only what is below the source. -/
def Call.Safe (c : Client) (store : Store) : Call → Prop
  | .writeFile fullPath _ _ => ∀ row ∈ store.rows, c.owns row = true → row.isDir = true →
      row.parts = pathParts fullPath →
      ∀ r ∈ store.rows, c.owns r = true → pathParts r.parentPath ≠ row.parts
  | .rename srcPath srcFilename dstPath dstFilename =>
    let src := c.pathOf srcPath srcFilename
    let dst := c.pathOf dstPath dstFilename
    (src <+: dst → src = dst) ∧ (c.Has store src true →
      (∀ row ∈ store.rows, c.owns row = true → SelectsBelow src row.parentPath) ∧
      ∀ path ∈ dst.dropLast.inits, below (joinSegments '/' src) (joinSegments '/' path) = false)
  | _ => True

instance (c : Client) (store : Store) (path : List Text) (isDir : Bool) :
    Decidable (c.Has store path isDir) := inferInstanceAs (Decidable (∃ row ∈ store.rows, _))

instance (src : List Text) (parentPath : Text) : Decidable (SelectsBelow src parentPath) :=
  inferInstanceAs (Decidable (_ → _))

instance (c : Client) (store : Store) (call : Call) : Decidable (call.Safe c store) :=
  match call with
  | .writeFile _ _ _ => inferInstanceAs (Decidable (∀ row ∈ store.rows, _))
  | .rename _ _ _ _ => inferInstanceAs (Decidable ((_ → _) ∧ (_ → _)))
  | .mkdir _ _ => inferInstanceAs (Decidable True)
  | .remove _ _ => inferInstanceAs (Decidable True)
  | .rmdir _ _ => inferInstanceAs (Decidable True)

structure Step where
  client : Client
  builtins : Builtins
  call : Call

def Step.run (store : Store) (step : Step) : Store :=
  match step.client.call step.builtins store step.call with
  | .ok store' => store'
  | .error _ => store

def SafeRun : Store → List Step → Prop
  | _, [] => True
  | store, step :: steps => step.call.Safe step.client store ∧ SafeRun (step.run store) steps

variable {builtins : Builtins}

lemma call_tree {call : Call} (h : c.call builtins store call = .ok store')
    (hsafe : call.Safe c store) (ht : c.IsTree store) :
    c.IsTree store' ∧ c.Apart store store' := by
  cases call with
  | mkdir path filename =>
    have he := mkdir_spec h
    exact ⟨he.tree ht, he.apart⟩
  | writeFile fullPath content contentType =>
    obtain ⟨parts, name, mid, hnam, hpath, he, hw⟩ := writeFile_spec h
    refine ⟨hw.tree hnam (he.tree ht) ?_ ?_, he.apart.trans hw.apart⟩
    · by_cases hnil : parts = []
      · exact .inl hnil
      · exact .inr (he.dirs parts prefix_rfl hnil)
    · intro row hrow howns hdir hp r hr hr' hb
      have hl : ∀ q : List Text, parts ++ [name] <+: q → ¬ q <+: parts := by
        intro q hq hpre
        have hle := (hq.trans hpre).length_le
        rw [length_append, length_singleton] at hle
        omega
      have hold : row ∈ store.rows := (he.mem_or hrow).resolve_right fun hnew =>
        hl _ (hp ▸ prefix_rfl) hnew.2.2.2
      have hrold : r ∈ store.rows := (he.mem_or hr).resolve_right fun hnew => by
        refine hl r.parts ?_ hnew.2.2.2
        rw [r.parts_eq, hb, hp]
        exact prefix_append _ _
      exact hsafe row hold howns hdir (hp.trans hpath.symm) r hrold hr' hb
  | remove path filename =>
    obtain ⟨row, hrow, howns, hfile, -, rfl⟩ := remove_spec h
    refine ⟨deleteRow_tree hrow ht fun r _ _ hdir => ?_, deleteRow_apart hrow howns⟩
    rw [hfile] at hdir
    cases hdir
  | rmdir path filename =>
    obtain ⟨row, hrow, howns, -, -, rfl, hemp⟩ := rmdir_spec h
    refine ⟨deleteRow_tree hrow ht fun r hr hr' _ hp => ?_, deleteRow_apart hrow howns⟩
    refine hemp r hr hr' ?_
    rw [← hp, ((isTree_iff.mp ht).1 r hr hr').1]
  | rename srcPath srcFilename dstPath dstFilename =>
    obtain ⟨mid, row, hren⟩ := rename_spec h
    obtain ⟨hself, hpat⟩ := hsafe
    have hsrc : c.pathOf srcPath srcFilename ≠ [] := by
      rw [← hren.source, row.parts_eq]
      simp
    have hdst : ¬ c.pathOf srcPath srcFilename <+: c.pathOf dstPath dstFilename := by
      intro hpre
      refine hren.free row hren.mem hren.owns hren.normal ?_
      rw [hren.source, hself hpre]
    have hmid := hren.ensured.tree ht
    have hhas : row.isDir = true → c.Has store (c.pathOf srcPath srcFilename) true := by
      intro hdir
      refine ⟨row, (hren.ensured.mem_or hren.mem).resolve_right fun hnew => ?_,
        hren.owns, hdir, hren.source⟩
      refine hdst (hren.source ▸ hnew.2.2.2.trans <| dropLast_prefix _)
    have hs : row.isDir = true → ∀ r ∈ mid.rows, c.owns r = true →
        SelectsBelow (c.pathOf srcPath srcFilename) r.parentPath := by
      intro hdir r hr howns
      obtain ⟨hold, hway⟩ := hpat (hhas hdir)
      rcases hren.ensured.mem_or hr with hmem | ⟨-, -, hn, hpre⟩
      · exact hold r hmem howns
      · intro hb
        rw [← hn.1, hway] at hb
        · cases hb
        · rw [mem_inits]
          refine List.IsPrefix.trans ?_ hpre
          exact prefix_append _ _
    obtain ⟨f, hrows, hf⟩ := hren.relocates hmid hsrc hs fun hdir =>
      (hpat (hhas hdir)).2 _ ((mem_inits _ _).mpr prefix_rfl)
    exact ⟨hren.tree hmid hsrc hdst hrows hf, hren.ensured.apart.trans (hf.apart hrows hren.owns)⟩

lemma Step.tree (step : Step) (hs : step.call.Safe step.client store)
    (ht : ∀ o p, Tree o p store) : Tree o p (step.run store) := by
  rw [Step.run]
  split
  · next store' hcall =>
    obtain ⟨ho, ha⟩ := call_tree hcall hs (ht _ _)
    by_cases hp : (o, p) = (step.client.organizationId, step.client.projectId)
    · obtain ⟨rfl, rfl⟩ := Prod.mk.inj hp
      exact ho
    · exact ha.tree (ht o p) hp
  · exact ht o p

lemma tree_empty (o p : String) : Tree o p Table.empty := ⟨nofun, nofun⟩

lemma SafeRun.tree {steps : List Step} (h : SafeRun store steps)
    (ht : ∀ o p, Tree o p store) (o p : String) : Tree o p (steps.foldl Step.run store) := by
  induction steps generalizing store with
  | nil => exact ht o p
  | cons step steps ih => exact ih h.2 fun _ _ => step.tree h.1 ht

theorem treeShaped_of_safeRun {steps : List Step} (h : SafeRun Table.empty steps) (o p : String) :
    TreeShaped o p (steps.foldl Step.run Table.empty) :=
  (h.tree tree_empty o p).shaped

def sampleClient : Client := ⟨"org", "project", [], rfl⟩

def sampleBuiltins : Builtins where
  uuid4 store := String.ofList (store.rows.map fun _ => 'x')
  sha256 _ := ""
  guessType _ := none

def sampleSteps (calls : List Call) : List Step := calls.map fun call =>
  ⟨sampleClient, sampleBuiltins, call⟩

def moveCalls : List Call :=
  [.mkdir (some "a/b".toList) none, .writeFile "a/b/f".toList [] none,
    .rename (some "a".toList) none (some "c/d".toList) none]

theorem treeShaped_moveCalls :
    ((sampleSteps moveCalls).foldl Step.run Table.empty).rows.map FileRecord.path =
        ["c/d".toList, "c/d/b".toList, "c/d/b/f".toList, "c".toList] ∧
      TreeShaped "org" "project" ((sampleSteps moveCalls).foldl Step.run Table.empty) := by
  have hsafe : SafeRun Table.empty (sampleSteps moveCalls) :=
    ⟨trivial, by decide +kernel, by decide +kernel, trivial⟩
  exact ⟨by decide +kernel, treeShaped_of_safeRun hsafe _ _⟩

theorem not_treeShaped_overwrite : ¬ TreeShaped "org" "project"
    ((sampleSteps [.writeFile "a/f".toList [] none, .writeFile "a".toList [] none]).foldl Step.run
      Table.empty) := by
  intro h
  have hparents := h.parents
  simp only [ParentsStored, InProject] at hparents
  revert hparents
  decide +kernel

end Dvt.ServiceFiles
