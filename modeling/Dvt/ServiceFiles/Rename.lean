import Dvt.ServiceFiles.Tree

/-! What a rename leaves alone. -/

namespace Dvt.ServiceFiles

open Library List Client FileRecord Table
open Projects (Text IsPart pathParts)

def FileRecord.body (row : FileRecord) :
    Bool × Option (List UInt8) × Option String × ℕ × Option String :=
  (row.isDir, row.content, row.contentType, row.size, row.sha256)

section

variable (c : Client) (src dst : List Text) (store store' : Store)

structure RenameFrame : Prop where
  outside : ∀ row ∈ store.rows, ¬ (c.owns row = true ∧ src <+: row.parts) → row ∈ store'.rows
  created : ∀ row' ∈ store'.rows, (∃ row ∈ store.rows, row.id = row'.id) ∨
    c.owns row' = true ∧ row'.isDir = true ∧ row'.parts <+: dst ∧ row'.parts ≠ dst
  kept : ∀ row ∈ store.rows, ∃ row' ∈ store'.rows, row'.id = row.id ∧ row'.body = row.body

/-- Only what is below the source is selected and moved, neither another stored entry nor a missing
directory on the way to the destination. -/
def SelectsSubtree : Prop :=
  ∃ row ∈ store.rows, c.owns row = true ∧ row.parts = src ∧ (row.isDir = true →
    (∀ r ∈ store.rows, c.owns r = true → below (joinSegments '/' src) r.parentPath = true →
      src <+: r.parts ∨
        relocate (joinSegments '/' src) (joinSegments '/' dst) r.parentPath = r.parentPath) ∧
    ∀ path ∈ dst.dropLast.inits, path ≠ [] → (∀ isDir, ¬ c.Has store path isDir) →
      below (joinSegments '/' src) (joinSegments '/' path.dropLast) = false)

instance : Decidable (SelectsSubtree c src dst store) :=
  inferInstanceAs (Decidable (∃ row ∈ store.rows, _))

end

lemma length_pathParts_pos {text : Text} {c : Char} (hc : c ∈ text) (hs : c ≠ '/')
    (hb : c ≠ '\\') : 0 < (pathParts text).length := by
  have hmap : c ∈ text.map fun c => if c = '\\' then '/' else c :=
    mem_map.mpr ⟨c, hc, if_neg hb⟩
  have hj : joinSegments '/' ((text.map fun c => if c = '\\' then '/' else c).splitOn '/') =
      text.map fun c => if c = '\\' then '/' else c := intercalate_splitOn '/'
  rw [← hj] at hmap
  obtain ⟨part, hpart, hmem⟩ := (mem_joinSegments hs).mp hmap
  refine length_pos_of_mem (mem_filter.mpr ⟨hpart, ?_⟩)
  simpa using ne_nil_of_mem hmem

lemma length_pathParts_append {dst : List Text} (h : ∀ part ∈ dst, IsName part) (suffix : Text) :
    dst.length ≤ (pathParts (joinSegments '/' dst ++ suffix)).length := by
  induction dst with
  | nil => exact Nat.zero_le _
  | cons part rest ih =>
    obtain ⟨hpart, hr⟩ := forall_mem_cons.mp h
    obtain ⟨c, part', rfl⟩ := exists_cons_of_ne_nil hpart.1.1.1
    have hs : c ≠ '/' := fun hc => hpart.1.1.2 (hc ▸ mem_cons_self)
    have hb : c ≠ '\\' := fun hc => hpart.1.2 (hc ▸ mem_cons_self)
    by_cases hnil : rest = []
    · rw [hnil]
      exact length_pathParts_pos (mem_append_left _ (by simp [joinSegments])) hs hb
    · have hf := length_pathParts_pos (mem_cons_self (a := c) (l := part')) hs hb
      have ha : pathParts (joinSegments '/' ((c :: part') :: rest) ++ suffix) =
          pathParts (c :: part') ++ pathParts (joinSegments '/' rest ++ suffix) := by
        rw [joinSegments_cons _ hnil, pathParts, append_assoc, map_append]
        exact segments_append_cons _ _
      have hle := ih hr
      rw [ha, length_append, length_cons]
      omega

variable {c : Client} {src dst : List Text} {store mid store' : Store} {row : FileRecord}

structure Rewrites (c : Client) (src dst : List Text) (mid : Store) (row : FileRecord)
    (f : FileRecord → FileRecord) : Prop where
  keeps : ∀ r, (f r).id = r.id ∧ (f r).body = r.body
  source : (f row).parts = dst ∨ ∃ suffix, (f row).parentPath = joinSegments '/' dst ++ suffix
  moves : ∀ r ∈ mid.rows, r ≠ row → row.isDir = true → c.owns r = true →
    below (joinSegments '/' src) r.parentPath = true →
    f r = { r with
      parentPath := relocate (joinSegments '/' src) (joinSegments '/' dst) r.parentPath }
  stays : ∀ r ∈ mid.rows, r ≠ row →
    ¬ (row.isDir = true ∧ c.owns r = true ∧ below (joinSegments '/' src) r.parentPath = true) →
    f r = r

lemma Renamed.rewrites (h : Renamed c src dst store mid row store') :
    ∃ f, store'.rows = mid.rows.map f ∧ Rewrites c src dst mid row f := by
  obtain ⟨name, hname, hrows⟩ := h.rows
  rw [map_map] at hrows
  have hpla : ∀ r ∈ mid.rows, r ≠ row →
      placedRow row.id (joinSegments '/' dst.dropLast) name r = r := fun r hr hne =>
    if_neg fun hid => hne (eq_of_key isKey_id hr h.mem hid)
  refine ⟨_, hrows, fun r => ?_, ?_, ?_, ?_⟩
  · rw [Function.comp_apply]
    have hp : ∀ r' : FileRecord, (c.movedRow (joinSegments '/' src) (joinSegments '/' dst) r').id =
        r'.id ∧ (c.movedRow (joinSegments '/' src) (joinSegments '/' dst) r').body = r'.body := by
      intro r'
      rw [movedRow]
      split <;> exact ⟨rfl, rfl⟩
    rw [placedRow]
    split_ifs
    any_goals exact ⟨rfl, rfl⟩
    all_goals exact hp _
  · have heq : dst.dropLast ++ [name] = dst := dropLast_append_getLast? name hname
    have hpar : ∀ part ∈ dst.dropLast, IsPart part := fun part hpart =>
      (h.dstNames part (dropLast_subset dst hpart)).1
    have hs : (placedRow row.id (joinSegments '/' dst.dropLast) name row).parts = dst := by
      rw [placedRow, if_pos rfl]
      exact (parts_of_join rfl hpar).trans heq
    rw [Function.comp_apply]
    split
    · rw [movedRow]
      split
      · exact .inr ⟨_, rfl⟩
      · exact .inl hs
    · exact .inl hs
  · intro r hr hne hdir howns hb
    rw [Function.comp_apply, hpla r hr hne, if_pos hdir, movedRow, if_pos ⟨howns, hb⟩]
  · intro r hr hne hstay
    rw [Function.comp_apply, hpla r hr hne]
    split
    · next hdir =>
      exact if_neg fun hsel => hstay ⟨hdir, hsel⟩
    · rfl

lemma not_onWay {r : FileRecord} {suffix : Text} (hdst : ∀ part ∈ dst, IsName part)
    (h : r.parentPath = joinSegments '/' dst ++ suffix) : ¬ r.parts <+: dst := by
  intro hpre
  have hle := hpre.length_le
  have hlen := length_pathParts_append hdst suffix
  rw [r.parts_eq, h, length_append, length_singleton] at hle
  omega

lemma Renamed.frame (h : Renamed c src dst store mid row store') (ht : c.IsTree store)
    (hs : SelectsSubtree c src dst store) : RenameFrame c src dst store store' := by
  have hmid := h.ensured.tree ht
  obtain ⟨f, hrows, hf⟩ := h.rewrites
  obtain ⟨source, hsou, howns, hp, hs⟩ := hs
  obtain rfl : source = row := ServiceFiles.Tree.eq_of_parts hmid (h.ensured.subset hsou)
    (owns_iff.mp howns) h.mem (owns_iff.mp h.owns) (hp.trans h.source.symm)
  have hmem : ∀ r ∈ mid.rows, f r ∈ store'.rows := fun r hr => hrows ▸ mem_map_of_mem hr
  refine ⟨fun r hr hout => ?_, fun r' hr' => ?_, fun r hr => ?_⟩
  · have hr' := h.ensured.subset hr
    have hne : r ≠ source := by
      rintro rfl
      exact hout ⟨howns, hp ▸ prefix_rfl⟩
    have hsame : f r = r := by
      by_cases hsel : source.isDir = true ∧ c.owns r = true ∧
          below (joinSegments '/' src) r.parentPath = true
      · obtain ⟨hdir, hrow, hb⟩ := hsel
        rw [hf.moves r hr' hne hdir hrow hb]
        rcases (hs hdir).1 r hr hrow hb with hpre | hsame
        · exact absurd ⟨hrow, hpre⟩ hout
        · rw [hsame]
      · exact hf.stays r hr' hne hsel
    exact hsame ▸ hmem r hr'
  · rw [hrows, mem_map] at hr'
    obtain ⟨r, hr, rfl⟩ := hr'
    by_cases hold : r ∈ store.rows
    · exact .inl ⟨r, hold, (hf.keeps r).1.symm⟩
    · right
      obtain ⟨hrow, hisdir, hn, hpre⟩ := (h.ensured.mem_or hr).resolve_left hold
      have hne : r ≠ source := fun heq => hold (heq ▸ hsou)
      have hm : ∀ isDir, ¬ c.Has store r.parts isDir := by
        rintro isDir ⟨other, hoth, hoow, -, ho⟩
        refine hold ?_
        rwa [ServiceFiles.Tree.eq_of_parts hmid hr (owns_iff.mp hrow)
          (h.ensured.subset hoth) (owns_iff.mp hoow) ho.symm]
      have hsame : f r = r := by
        refine hf.stays r hr hne ?_
        rintro ⟨hdir, -, hb⟩
        have hfal := (hs hdir).2 r.parts ((mem_inits _ _).mpr hpre) (by simp [r.parts_eq]) hm
        rw [r.parts_eq, dropLast_concat, hn.1, hb] at hfal
        cases hfal
      rw [hsame]
      refine ⟨hrow, hisdir, hpre.trans <| dropLast_prefix dst, fun heq => ?_⟩
      have hle := hpre.length_le
      have hpos := length_pos_of_ne_nil h.nonempty
      rw [heq, length_dropLast] at hle
      omega
  · exact ⟨f r, hmem r (h.ensured.subset hr), hf.keeps r⟩

lemma Renamed.selectsSubtree (h : Renamed c src dst store mid row store') (ht : c.IsTree store)
    (hfra : RenameFrame c src dst store store') : SelectsSubtree c src dst store := by
  have hmid := h.ensured.tree ht
  obtain ⟨f, hrows, hf⟩ := h.rewrites
  have hmem : ∀ r ∈ mid.rows, f r ∈ store'.rows := fun r hr => hrows ▸ mem_map_of_mem hr
  -- an entry that was created stays on the way
  have hc : ∀ r ∈ mid.rows, r ∉ store.rows → (f r).parts <+: dst ∧ (f r).parts ≠ dst := by
    intro r hr hnew
    refine ((hfra.created (f r) (hmem r hr)).resolve_left ?_).2.2
    rintro ⟨old, hold, hid⟩
    refine hnew ?_
    rw [← eq_of_key isKey_id (h.ensured.subset hold) hr (hid.trans (hf.keeps r).1)]
    exact hold
  have hs : row ∈ store.rows := by
    by_contra hnew
    obtain ⟨hpre, hne⟩ := hc row h.mem hnew
    rcases hf.source with hp | ⟨suffix, hparent⟩
    · exact hne hp
    · exact not_onWay h.dstNames hparent hpre
  refine ⟨row, hs, h.owns, h.source, fun hdir => ⟨?_, ?_⟩⟩
  · intro r hr howns hb
    by_cases hpre : src <+: r.parts
    · exact .inl hpre
    · right
      have hne : r ≠ row := by
        rintro rfl
        exact hpre (h.source ▸ prefix_rfl)
      have hm := hf.moves r (h.ensured.subset hr) hne hdir howns hb
      have hsame : f r = r := eq_of_key isKey_id (hmem r (h.ensured.subset hr))
        (hfra.outside r hr fun h => hpre h.2) (hf.keeps r).1
      rw [hsame] at hm
      exact (congrArg (fun r => r.parentPath) hm).symm
  · intro path hpath hne hmis
    rw [mem_inits] at hpath
    obtain ⟨r, hr, howns, hisdir, hp⟩ := h.ensured.dirs path hpath hne
    have hnew : r ∉ store.rows := fun hold => hmis true ⟨r, hold, howns, hisdir, hp⟩
    have hn := (isTree_iff.mp hmid).1 r hr howns
    rw [Bool.eq_false_iff]
    intro hb
    have hparent : joinSegments '/' path.dropLast = r.parentPath := by
      rw [← hp, r.parts_eq, dropLast_concat, hn.1]
    rw [hparent] at hb
    have hm := hf.moves r hr (fun heq => hnew (heq ▸ hs)) hdir howns hb
    exact not_onWay h.dstNames (congrArg (fun r => r.parentPath) hm) (hc r hr hnew).1

theorem renameFrame_iff_selectsSubtree {builtins : Builtins}
    {srcPath srcFilename dstPath dstFilename : Option Text}
    (htree : Tree c.organizationId c.projectId store)
    (h : c.rename builtins srcPath srcFilename dstPath dstFilename store = .ok store') :
    RenameFrame c (c.pathOf srcPath srcFilename) (c.pathOf dstPath dstFilename) store store' ↔
      SelectsSubtree c (c.pathOf srcPath srcFilename) (c.pathOf dstPath dstFilename) store := by
  obtain ⟨mid, row, hrenamed⟩ := rename_spec h
  exact ⟨hrenamed.selectsSubtree htree, hrenamed.frame htree⟩

lemma Step.run_eq_ok (step : Step) (store : Store)
    (h : (step.client.call step.builtins store step.call).toBool = true) :
    step.client.call step.builtins store step.call = .ok (step.run store) := by
  rw [Step.run]
  cases hcall : step.client.call step.builtins store step.call with
  | ok store' => rfl
  | error raised =>
    rw [hcall] at h
    cases h

def patternCalls : List Call :=
  [.mkdir (some "a_b/e".toList) none, .writeFile "axb/c/f".toList [] none]

def patternStore : Store := (sampleSteps patternCalls).foldl Step.run Table.empty

lemma tree_patternStore : Tree "org" "project" patternStore := by
  have hs : SafeRun Table.empty (sampleSteps patternCalls) :=
    ⟨trivial, by decide +kernel, trivial⟩
  exact hs.tree tree_empty _ _

def renameStep (srcPath dstPath : String) : Step :=
  ⟨sampleClient, sampleBuiltins, .rename (some srcPath.toList) none (some dstPath.toList) none⟩

theorem renameFrame_patternStore :
    ((renameStep "axb" "d/g").run patternStore).rows.map path =
        ["a_b".toList, "a_b/e".toList, "d/g".toList, "d/g/c".toList, "d/g/c/f".toList, "d".toList] ∧
      RenameFrame sampleClient ["axb".toList] ["d".toList, "g".toList] patternStore
        ((renameStep "axb" "d/g").run patternStore) := by
  have hrun : sampleClient.rename sampleBuiltins (some "axb".toList) none (some "d/g".toList) none
      patternStore = .ok ((renameStep "axb" "d/g").run patternStore) :=
    Step.run_eq_ok (renameStep "axb" "d/g") patternStore (by decide +kernel)
  refine ⟨by decide +kernel, ?_⟩
  exact (renameFrame_iff_selectsSubtree tree_patternStore hrun).mpr (by decide +kernel)

theorem not_renameFrame_patternStore : Tree "org" "project" patternStore ∧
      sampleClient.rename sampleBuiltins (some "a_b".toList) none (some "d".toList) none
        patternStore = .ok ((renameStep "a_b" "d").run patternStore) ∧
      ¬ RenameFrame sampleClient ["a_b".toList] ["d".toList] patternStore
        ((renameStep "a_b" "d").run patternStore) := by
  refine ⟨tree_patternStore, Step.run_eq_ok (renameStep "a_b" "d") patternStore (by decide +kernel),
    fun hframe => ?_⟩
  have houtside := hframe.outside
  revert houtside
  decide +kernel

end Dvt.ServiceFiles
