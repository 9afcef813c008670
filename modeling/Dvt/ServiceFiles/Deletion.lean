import Dvt.ServiceFiles.Gateway

/-! Deleting a folder through the gateway, and when the listed paths are good for that. -/

namespace Dvt.ServiceFiles

open Library List Client FileRecord Table Gateway
open Projects (Text IsPart pathParts)

variable {store store' : Store} {n fuel : ℕ} {row dir : FileRecord} {g : Gateway}
  {parts : List Text} {c : Client} {path : Text}

structure Deleted (p : FileRecord → Bool) (store store' : Store) (n : ℕ) : Prop where
  rows : store'.rows = store.rows.filter fun row => !p row
  count : n = store.rows.countP fun row => p row && !row.isDir

variable {p q : FileRecord → Bool} {mid : Store} {m : ℕ}

lemma countP_or (p q : FileRecord → Bool) (rows : List FileRecord) :
    rows.countP (fun row => (p row || q row) && !row.isDir) =
      rows.countP (fun row => p row && !row.isDir) +
        (rows.filter fun row => !p row).countP fun row => q row && !row.isDir := by
  induction rows with
  | nil => rfl
  | cons row rows ih =>
    rw [countP_cons, countP_cons, filter_cons]
    cases hp : p row with
    | false =>
      simp only [Bool.false_or, Bool.false_and, Bool.not_false, if_true, countP_cons,
        Bool.false_eq_true, if_false]
      omega
    | true =>
      simp only [Bool.true_or, Bool.not_true, Bool.false_eq_true, if_false]
      omega

lemma Deleted.trans (h : Deleted p store mid n) (h' : Deleted q mid store' m) :
    Deleted (fun row => p row || q row) store store' (n + m) where
  rows := by
    rw [h'.rows, h.rows, filter_filter]
    refine filter_congr fun row _ => ?_
    rw [Bool.not_or, Bool.and_comm]
  count := by rw [countP_or, ← h.rows, ← h.count, ← h'.count]

lemma Deleted.congr (h : Deleted p store store' n) (hpq : ∀ row ∈ store.rows, p row = q row) :
    Deleted q store store' n where
  rows := by
    rw [h.rows]
    exact filter_congr fun row hrow => by rw [hpq row hrow]
  count := by
    rw [h.count]
    exact countP_congr fun row hrow => by rw [hpq row hrow]

lemma Deleted.mem (h : Deleted p store store' n) :
    row ∈ store'.rows ↔ row ∈ store.rows ∧ p row = false := by
  rw [h.rows, mem_filter, Bool.not_eq_true']

lemma deleted_row (hrow : row ∈ store.rows) :
    Deleted (fun r => r.id = row.id) store (store.deleteRow row.id) (if row.isDir then 0 else 1) where
  rows := rfl
  count := by
    have hs := select_key isKey_id hrow
    rw [Table.select] at hs
    rw [countP_congr (q := fun r => !r.isDir && decide (r.id = row.id)) (by simp [and_comm]),
      ← countP_filter, hs]
    cases hdir : row.isDir <;> simp [hdir]

def Client.under (c : Client) (parts : List Text) (row : FileRecord) : Bool :=
  c.owns row && parts.isPrefixOf row.parts

lemma Client.under_iff : c.under parts row = true ↔ c.owns row = true ∧ parts <+: row.parts := by
  rw [under, Bool.and_eq_true, isPrefixOf_iff_prefix]

structure Gateway.Ready (g : Gateway) (fuel : ℕ) (parts : List Text) (store : Store) : Prop where
  tree : g.client.IsTree store
  addresses : ∀ row ∈ store.rows, g.client.under parts row = true → row.parts ≠ parts →
    g.resolve row.path = .ok row.path
  depth : ∀ row ∈ store.rows, g.client.under parts row = true →
    row.parts.length < parts.length + fuel

lemma Gateway.Ready.after {p : FileRecord → Bool} (h : g.Ready fuel parts store)
    (hdel : Deleted p store store' n)
    (hp : ∀ row dir, g.client.owns row = true → dir.parts = pathParts row.parentPath →
      p dir = true → p row = true) : g.Ready fuel parts store' where
  tree := by
    obtain ⟨hn, hpare⟩ := isTree_iff.mp h.tree
    refine isTree_iff.mpr ⟨fun row hrow => hn row (hdel.mem.mp hrow).1,
      fun row hrow howns => ?_⟩
    obtain ⟨hrow, hk⟩ := hdel.mem.mp hrow
    rcases hpare row hrow howns with hroot | ⟨dir, hdir, hd, hisdir, hpar⟩
    · exact .inl hroot
    · refine .inr ⟨dir, hdel.mem.mpr ⟨hdir, ?_⟩, hd, hisdir, hpar⟩
      rw [← Bool.not_eq_true]
      intro hg
      rw [hp row dir howns hpar hg] at hk
      cases hk
  addresses := fun row hrow => h.addresses row (hdel.mem.mp hrow).1
  depth := fun row hrow => h.depth row (hdel.mem.mp hrow).1

lemma Gateway.Ready.child (h : g.Ready (fuel + 1) parts store)
    (hparent : pathParts row.parentPath = parts) : g.Ready fuel row.parts store := by
  have hp : row.parts = parts ++ [row.name] := by rw [row.parts_eq, hparent]
  have hu : ∀ r, g.client.under row.parts r = true → g.client.under parts r = true := by
    intro r hr
    obtain ⟨howns, hpre⟩ := under_iff.mp hr
    exact under_iff.mpr ⟨howns, (hp ▸ prefix_append _ _).trans hpre⟩
  refine ⟨h.tree, fun r hr hru _ => h.addresses r hr (hu r hru) ?_, fun r hr hru => ?_⟩
  · intro heq
    have hlen := (under_iff.mp hru).2.length_le
    rw [hp, heq, length_append, length_singleton] at hlen
    omega
  · have hd := h.depth r hr (hu r hru)
    rw [hp, length_append, length_singleton]
    omega

lemma under_step (hp : dir.parts = pathParts row.parentPath)
    (howns : c.owns row = true) (h : c.under parts dir = true) : c.under parts row = true := by
  obtain ⟨-, hpre⟩ := under_iff.mp h
  refine under_iff.mpr ⟨howns, hpre.trans ?_⟩
  rw [hp]
  exact prefix_append _ _

lemma under_file (ht : c.IsTree store) (hrow : row ∈ store.rows)
    (howns : c.owns row = true) (hfile : row.isDir = false) {r : FileRecord} (hr : r ∈ store.rows) :
    c.under row.parts r = decide (r.id = row.id) := by
  rw [Bool.eq_iff_iff, under_iff, decide_eq_true_eq]
  constructor
  · rintro ⟨hrowns, hpre⟩
    have hp := ht.shaped.files r hr (owns_iff.mp hrowns) row hrow
      (owns_iff.mp howns) hfile hpre
    rw [ht.eq_of_parts hr (owns_iff.mp hrowns) hrow (owns_iff.mp howns) hp]
  · intro hid
    obtain rfl := eq_of_key isKey_id hr hrow hid
    exact ⟨howns, prefix_rfl⟩

lemma parentAndName_of_resolve (hn : row.Normal) (h : g.resolve path = .ok row.path) :
    fromRaw path = .ok (joinSegments '/' (relativeParts path)) ∧
      g.client.parentAndName (some (joinSegments '/' (relativeParts path))) none =
        .ok (row.parentPath, row.name) := by
  obtain ⟨hd, hp⟩ := (resolve_eq_path hn).mp h
  refine ⟨fromRaw_eq_ok.mpr ⟨hd, rfl⟩, ?_⟩
  rw [parentAndName, (scopedPath_relative g.client hd).1, hp]
  refine (splitPath_join hn.2).trans ?_
  rw [hn.1]

lemma deleteFile_eq (hn : row.Normal) (hrow : row ∈ store.rows)
    (howns : g.client.owns row = true) (hfile : row.isDir = false)
    (h : g.resolve path = .ok row.path) :
    g.deleteFile path store = .ok (store.deleteRow row.id) := by
  obtain ⟨hraw, hname⟩ := parentAndName_of_resolve hn h
  have hs := selectEntry_eq_some.mpr ⟨hrow, howns, rfl, rfl⟩
  have hr : g.client.remove (some (joinSegments '/' (relativeParts path))) none store =
      .ok (store.deleteRow row.id) := by
    refine bind_eq_ok.mpr ⟨_, hname, ?_⟩
    dsimp only
    rw [hs, Option.filter_some, if_pos (by rw [hfile]; rfl)]
    rfl
  rw [deleteFile, hraw]
  dsimp only
  rw [hr]

lemma rmdir_eq (hn : row.Normal) (hrow : row ∈ store.rows) (howns : g.client.owns row = true)
    (hdir : row.isDir = true) (he : g.client.children store row.path = [])
    (h : g.resolve path = .ok row.path) :
    g.client.rmdir (some (joinSegments '/' (relativeParts path))) none store =
      .ok (store.deleteRow row.id) := by
  obtain ⟨-, hname⟩ := parentAndName_of_resolve hn h
  have hs := selectEntry_eq_some.mpr ⟨hrow, howns, rfl, rfl⟩
  have hj : joinPath [some row.parentPath, some row.name] = .ok row.path := by
    rw [← hn.1]
    exact joinPath_pair hn.2
  refine bind_eq_ok.mpr ⟨_, hname, bind_eq_ok.mpr ⟨_, hj, ?_⟩⟩
  rw [if_neg (not_not.mpr he)]
  rw [hs, Option.filter_some, if_pos hdir]
  rfl

def Gateway.DeletesIn (g : Gateway) (fuel : ℕ) : Prop :=
  ∀ path store, ∀ dir ∈ store.rows, g.client.owns dir = true → dir.isDir = true →
    g.resolve path = .ok dir.path → g.Ready fuel dir.parts store →
    ∃ store' n, g.deleteFolder fuel path store = (store', .ok ⟨n, []⟩) ∧
      Deleted (g.client.under dir.parts) store store' n

lemma deleteEntries_cons (hf : g.DeletesIn fuel)
    (hready : g.Ready (fuel + 1) parts store) (hrow : row ∈ store.rows)
    (howns : g.client.owns row = true) (hparent : pathParts row.parentPath = parts)
    (entries : List Entry) (total : ℕ) :
    ∃ store' n, Deleted (g.client.under row.parts) store store' n ∧
      g.deleteEntries (g.deleteFolder fuel) (row.entry :: entries) store ⟨total, []⟩ =
        g.deleteEntries (g.deleteFolder fuel) entries store' ⟨total + n, []⟩ := by
  have hn := hready.tree.normal row hrow (owns_iff.mp howns)
  have hp : row.parts = parts ++ [row.name] := by rw [row.parts_eq, hparent]
  have ha : g.resolve row.path = .ok row.path := by
    refine hready.addresses row hrow (under_iff.mpr ⟨howns, ?_⟩) ?_
    · rw [hp]
      exact prefix_append _ _
    · rw [hp]
      simp
  cases hdir : row.isDir with
  | true =>
    obtain ⟨store', n, hdel, hd⟩ := hf row.path store row hrow howns hdir ha (hready.child hparent)
    refine ⟨store', n, hd, ?_⟩
    rw [deleteEntries, if_pos (show row.entry.isDir = true from hdir),
      show row.entry.path = row.path from rfl, hdel]
    rfl
  | false =>
    have hdel := deleteFile_eq hn hrow howns hdir ha
    refine ⟨store.deleteRow row.id, 1, ?_, ?_⟩
    · have hd := deleted_row hrow
      rw [hdir] at hd
      exact hd.congr fun r hr => (under_file hready.tree hrow howns hdir hr).symm
    · rw [deleteEntries, if_neg (by rw [show row.entry.isDir = false from hdir]; decide),
        show row.entry.path = row.path from rfl, deleteFiles, hdel]
      rfl

lemma deleteEntries_spec (hf : g.DeletesIn fuel) {rows : List FileRecord}
    (hready : g.Ready (fuel + 1) parts store) (hn : rows.Nodup)
    (hrows : ∀ row ∈ rows, row ∈ store.rows ∧ g.client.owns row = true ∧
      pathParts row.parentPath = parts) (total : ℕ) :
    ∃ store' n, g.deleteEntries (g.deleteFolder fuel) (rows.map entry) store ⟨total, []⟩ =
        (store', .ok ⟨total + n, []⟩) ∧
      Deleted (fun r => rows.any fun row => g.client.under row.parts r) store store' n ∧
      g.Ready (fuel + 1) parts store' := by
  induction rows generalizing store total with
  | nil => exact ⟨store, 0, rfl, ⟨by simp, by simp⟩, hready⟩
  | cons row rows ih =>
    obtain ⟨hrow, howns, hparent⟩ := hrows row (mem_cons_self ..)
    obtain ⟨mid, n, hd, ht⟩ := deleteEntries_cons hf hready hrow howns hparent
      (rows.map entry) total
    have hmid : g.Ready (fuel + 1) parts mid :=
      hready.after hd fun r dir howns hp => under_step hp howns
    -- the other children stand: a sibling is not below the one that went
    have hr : ∀ other ∈ rows, other ∈ mid.rows ∧ g.client.owns other = true ∧
        pathParts other.parentPath = parts := by
      intro other hoth
      obtain ⟨hmem, hoow, ho⟩ := hrows other (mem_cons_of_mem _ hoth)
      refine ⟨hd.mem.mpr ⟨hmem, ?_⟩, hoow, ho⟩
      rw [← Bool.not_eq_true, under_iff]
      rintro ⟨-, hpre⟩
      have hlen : row.parts.length = other.parts.length := by
        rw [row.parts_eq, other.parts_eq, hparent, ho]
        simp
      have heq := hready.tree.eq_of_parts hrow (owns_iff.mp howns) hmem
        (owns_iff.mp hoow) (hpre.eq_of_length hlen)
      exact (nodup_cons.mp hn).1 (heq ▸ hoth)
    obtain ⟨store', m, hl, hd', hready'⟩ := ih hmid (nodup_cons.mp hn).2 hr (total + n)
    refine ⟨store', n + m, ?_, hd.trans hd', hready'⟩
    rw [map_cons, ht, hl, Nat.add_assoc]

lemma parentPath_eq_path (ht : c.IsTree store) (hdir : dir ∈ store.rows)
    (hd : c.owns dir = true) (hrow : row ∈ store.rows) (howns : c.owns row = true) :
    row.parentPath = dir.path ↔ pathParts row.parentPath = dir.parts := by
  rw [eq_comm, path_eq_parentPath (ht.normal row hrow (owns_iff.mp howns))
    (ht.normal dir hdir (owns_iff.mp hd)), eq_comm]

lemma under_dir (ht : c.IsTree store) (hdir : dir ∈ store.rows)
    (hd : c.owns dir = true) {children : List FileRecord}
    (hchildren : ∀ row, row ∈ children ↔ row ∈ store.rows ∧ c.owns row = true ∧
      pathParts row.parentPath = dir.parts) (hrow : row ∈ store.rows) :
    ((children.any fun child => c.under child.parts row) || decide (row.id = dir.id)) =
      c.under dir.parts row := by
  rw [Bool.eq_iff_iff, Bool.or_eq_true, any_eq_true, decide_eq_true_eq, under_iff]
  constructor
  · rintro (⟨child, hchild, hu⟩ | hid)
    · obtain ⟨howns, hpre⟩ := under_iff.mp hu
      refine ⟨howns, List.IsPrefix.trans ?_ hpre⟩
      rw [child.parts_eq, ((hchildren child).mp hchild).2.2]
      exact prefix_append _ _
    · obtain rfl := eq_of_key isKey_id hrow hdir hid
      exact ⟨hd, prefix_rfl⟩
  · rintro ⟨howns, rest, hr⟩
    cases rest with
    | nil =>
      rw [append_nil] at hr
      rw [ht.eq_of_parts hrow (owns_iff.mp howns) hdir (owns_iff.mp hd) hr.symm]
      exact .inr rfl
    | cons part rest =>
      rw [append_cons] at hr
      have hchild : ∃ child ∈ store.rows, c.owns child = true ∧ child.parts = dir.parts ++ [part] := by
        by_cases hnil : rest = []
        · exact ⟨row, hrow, howns, by rw [← hr, hnil, append_nil]⟩
        · obtain ⟨child, hchild, hcin, -, hp⟩ := ht.dir_above hrow (owns_iff.mp howns)
            (by simp) hnil hr.symm
          exact ⟨child, hchild, owns_iff.mpr hcin, hp⟩
      obtain ⟨child, hchild, hc, hp⟩ := hchild
      have hparent := (append_inj' (child.parts_eq.symm.trans hp) rfl).1
      refine .inl ⟨child, (hchildren child).mpr ⟨hchild, hc, hparent⟩, ?_⟩
      exact under_iff.mpr ⟨howns, hp ▸ ⟨rest, hr⟩⟩

lemma deletesIn (g : Gateway) (fuel : ℕ) : g.DeletesIn fuel := by
  induction fuel with
  | zero =>
    intro path store dir hdir howns _ _ hready
    have hdep := hready.depth dir hdir (under_iff.mpr ⟨howns, prefix_rfl⟩)
    omega
  | succ fuel ih =>
    intro path store dir hdir howns hisdir ha hready
    have hn := hready.tree.normal dir hdir (owns_iff.mp howns)
    obtain ⟨hdots, hp⟩ := (resolve_eq_path hn).mp ha
    have hchildren : ∀ row, row ∈ g.listed store dir.parts ↔ row ∈ store.rows ∧
        g.client.owns row = true ∧ pathParts row.parentPath = dir.parts := by
      intro row
      rw [mem_listed]
      refine and_congr_right fun hrow => and_congr_right fun hr => ?_
      exact parentPath_eq_path hready.tree hdir howns hrow hr
    have hnod : (g.listed store dir.parts).Nodup :=
      (mergeSort_perm _ _).nodup_iff.mpr ((nodup_rows isKey_id store).filter _)
    have hlist := listEntries_eq (g := g)
      (fun row hrow h => hready.tree.normal row hrow (owns_iff.mp h)) hdots
    rw [hp] at hlist
    obtain ⟨mid, n, hloop, hd, hmid⟩ := deleteEntries_spec ih hready hnod
      (fun row hrow => (hchildren row).mp hrow) 0
    have hdirm : dir ∈ mid.rows := by
      refine hd.mem.mpr ⟨hdir, ?_⟩
      rw [any_eq_false]
      intro child hchild
      rw [under_iff, child.parts_eq, ((hchildren child).mp hchild).2.2]
      rintro ⟨-, hpre⟩
      have hlen := hpre.length_le
      rw [length_append, length_singleton] at hlen
      omega
    have he : g.client.children mid dir.path = [] := by
      rw [eq_nil_iff_forall_not_mem]
      intro row hrow
      obtain ⟨hrow, hc⟩ := mem_select.mp hrow
      obtain ⟨hr, hparent⟩ := of_decide_eq_true hc
      obtain ⟨hold, hk⟩ := hd.mem.mp hrow
      refine any_eq_false.mp hk row ?_ (under_iff.mpr ⟨hr, prefix_rfl⟩)
      exact (hchildren row).mpr ⟨hold, hr,
        (parentPath_eq_path hready.tree hdir howns hold hr).mp hparent⟩
    have hrmd := rmdir_eq hn hdirm howns hisdir he ha
    refine ⟨mid.deleteRow dir.id, n, ?_, ?_⟩
    · rw [deleteFolder, (parentAndName_of_resolve hn ha).1]
      dsimp only
      rw [hlist]
      dsimp only
      rw [hloop]
      dsimp only
      rw [hrmd, Nat.zero_add]
    · have hl := deleted_row hdirm
      rw [hisdir] at hl
      exact (hd.trans hl).congr fun row hrow => under_dir hready.tree hdir howns hchildren hrow

lemma listNodes_eq (hn : ∀ row ∈ store.rows, g.client.owns row = true → row.Normal)
    (maxItems : ℕ) (hd : ['.', '.'] ∉ relativeParts path) :
    let entries := (g.listed store (g.client.rootParts ++ relativeParts path)).map entry
    g.listNodes path maxItems store = .ok (entries.take maxItems, entries.length > maxItems) := by
  rw [listNodes, fromRaw_eq, if_neg hd]
  dsimp only
  rw [listEntries_eq hn hd]

lemma addresses_of_usable (ht : g.client.IsTree store)
    (hu : ∀ row ∈ store.rows, g.client.owns row = true → g.client.rootParts <+: row.parts →
      row.parts ≠ g.client.rootParts → g.resolve row.path = .ok row.path)
    {maxItems : ℕ} {nodes : List Entry} {truncated : Bool}
    (h : g.listNodes path maxItems store = .ok (nodes, truncated)) {node : Entry}
    (hn : node ∈ nodes) : g.resolve node.path = .ok node.path := by
  have hd : ['.', '.'] ∉ relativeParts path := by
    intro hd
    rw [listNodes, fromRaw_eq, if_pos hd] at h
    cases h
  rw [listNodes_eq (fun row hrow howns => ht.normal row hrow (owns_iff.mp howns)) maxItems
    hd] at h
  cases h
  obtain ⟨row, hrow, rfl⟩ := mem_map.mp (mem_of_mem_take hn)
  obtain ⟨hrow, howns, hparent⟩ := mem_listed.mp hrow
  have hp := parts_of_join hparent fun part hpart =>
    ((scopedPath_relative g.client hd).2 part hpart).1
  refine hu row hrow howns ?_ ?_
  · rw [hp, append_assoc]
    exact prefix_append _ _
  · rw [hp]
    simp

lemma exists_listing (ht : g.client.IsTree store) (hrow : row ∈ store.rows)
    (howns : g.client.owns row = true) (hpre : g.client.rootParts <+: row.parts)
    (hne : row.parts ≠ g.client.rootParts) :
    ∃ path maxItems nodes truncated, g.listNodes path maxItems store = .ok (nodes, truncated) ∧
      row.entry ∈ nodes := by
  have hn := ht.normal row hrow (owns_iff.mp howns)
  obtain ⟨rest, hr⟩ := hpre
  rcases eq_nil_or_concat rest with rfl | ⟨init, last, rfl⟩
  · exact absurd (by rw [← hr, append_nil]) hne
  · rw [concat_eq_append, ← append_assoc] at hr
    have hparent := (append_inj' hr rfl).1
    have hi : ∀ part ∈ init, IsName part := fun part hpart => by
      refine hn.2 part ?_
      rw [row.parts_eq, ← hparent]
      exact mem_append_left _ (mem_append_right _ hpart)
    have hp := relativeParts_slashes hi
    have hd : ['.', '.'] ∉ relativeParts ('/' :: (joinSegments '/' init ++ ['/'])) := by
      rw [hp]
      exact fun hd => (hi _ hd).2 (by decide)
    have hl := listNodes_eq (g := g)
      (fun row hrow howns => ht.normal row hrow (owns_iff.mp howns))
      (g.listed store (g.client.rootParts ++ init)).length hd
    rw [hp] at hl
    refine ⟨_, _, _, _, hl, ?_⟩
    rw [take_of_length_le (by simp)]
    refine mem_map_of_mem (mem_listed.mpr ⟨hrow, howns, ?_⟩)
    rw [hparent, hn.1]

lemma Deleted.deletes (h : g.deleteFolder fuel path store = (store', .ok ⟨n, []⟩))
    (hd : Deleted (g.client.under dir.parts) store store' n) : g.Deletes fuel path dir store := by
  refine ⟨store', ?_, ?_⟩
  · rw [h, hd.count]
    congr 4
    funext row
    rw [Bool.eq_iff_iff, Bool.and_eq_true, under_iff]
    simp [and_assoc]
  · rw [hd.rows]
    refine filter_congr fun row _ => ?_
    rw [Bool.eq_iff_iff, Bool.not_eq_true', ← Bool.not_eq_true, under_iff, decide_eq_true_eq]

theorem sound_iff_usable (htree : g.client.IsTree store)
    (hdepth : ∀ row ∈ store.rows, g.client.owns row = true → row.parts.length ≤ fuel) :
    g.Sound fuel store ↔ ∀ row ∈ store.rows, g.client.owns row = true →
      g.client.rootParts <+: row.parts → row.parts ≠ g.client.rootParts →
      Usable g.client.rootParts row.path := by
  have hnormal : ∀ row ∈ store.rows, g.client.owns row = true → row.Normal := fun row hrow howns =>
    htree.normal row hrow (owns_iff.mp howns)
  have hself : (∀ row ∈ store.rows, g.client.owns row = true → g.client.rootParts <+: row.parts →
      row.parts ≠ g.client.rootParts → Usable g.client.rootParts row.path) ↔
      ∀ row ∈ store.rows, g.client.owns row = true → g.client.rootParts <+: row.parts →
        row.parts ≠ g.client.rootParts → g.resolve row.path = .ok row.path :=
    forall₂_congr fun row hrow => forall₂_congr fun howns hpre => imp_congr_right fun hne =>
      (resolve_self_iff (hnormal row hrow howns) hpre hne).symm
  rw [hself]
  constructor
  · intro hsound row hrow howns hpre hne
    obtain ⟨path, maxItems, nodes, truncated, hlist, hnode⟩ :=
      exists_listing htree hrow howns hpre hne
    exact hsound.addresses path maxItems nodes truncated hlist row.entry hnode
  · intro husable
    refine ⟨fun path maxItems nodes truncated h node hnode =>
      addresses_of_usable htree husable h hnode, ?_⟩
    intro path dir hdir howns hisdir haddress
    have hroot : g.client.rootParts <+: dir.parts :=
      ⟨_, ((resolve_eq_path (hnormal dir hdir howns)).mp haddress).2⟩
    have hready : g.Ready fuel dir.parts store := by
      refine ⟨htree, fun row hrow hunder hne => ?_, fun row hrow hunder => ?_⟩
      · obtain ⟨hrowns, hpre⟩ := under_iff.mp hunder
        refine husable row hrow hrowns (hroot.trans hpre) fun heq => hne ?_
        exact (hpre.eq_of_length (le_antisymm hpre.length_le (heq ▸ hroot.length_le))).symm
      · have hlen := hdepth row hrow (under_iff.mp hunder).1
        rw [dir.parts_eq, length_append, length_singleton]
        omega
    obtain ⟨store', n, hdelete, hdeleted⟩ := deletesIn g fuel path store dir hdir howns hisdir
      haddress hready
    exact hdeleted.deletes hdelete

def uploadCalls : List Call := [.writeFile "node-inputs/node/file/d/f".toList [] none]

def uploadStore : Store := (sampleSteps uploadCalls).foldl Step.run Table.empty

lemma tree_uploadStore : Tree "org" "project" uploadStore := by
  have hs : SafeRun Table.empty (sampleSteps uploadCalls) := ⟨by decide +kernel, trivial⟩
  exact hs.tree tree_empty _ _

def projectGateway : Gateway := ⟨sampleClient, fun _ _ => true⟩

theorem sound_projectGateway : projectGateway.Sound 5 uploadStore :=
  (sound_iff_usable (g := projectGateway) tree_uploadStore (by decide +kernel)).mpr (by decide +kernel)

def inputGateway : Gateway where
  client := { sampleClient with rootPrefix := "node-inputs/node/file".toList, normal := by decide +kernel }
  collation _ _ := true

/-- The file of the folder `d` is listed with the root prefix in its path, and is not found there. -/
theorem not_sound_inputGateway : inputGateway.client.IsTree uploadStore ∧
    (inputGateway.listNodes "d".toList 10 uploadStore).toOption.map (fun r => r.1.map Entry.path) =
      some ["node-inputs/node/file/d/f".toList] ∧
    inputGateway.resolve "node-inputs/node/file/d/f".toList =
      .ok "node-inputs/node/file/node-inputs/node/file/d/f".toList ∧
    (inputGateway.deleteFolder 5 "d".toList uploadStore).1.rows = uploadStore.rows ∧
    (inputGateway.deleteFolder 5 "d".toList uploadStore).2 =
      .error (.client (.os "Directory is not empty.")) ∧
    ¬ inputGateway.Sound 5 uploadStore := by
  have hfail : (inputGateway.deleteFolder 5 "d".toList uploadStore).2 =
      .error (.client (.os "Directory is not empty.")) := by decide +kernel
  have hdir : ∃ dir ∈ uploadStore.rows, inputGateway.client.owns dir = true ∧ dir.isDir = true ∧
      inputGateway.resolve "d".toList = .ok dir.path := by decide +kernel
  refine ⟨tree_uploadStore, by decide +kernel, by decide +kernel, by decide +kernel, hfail,
    fun hsound => ?_⟩
  obtain ⟨dir, hmem, howns, hisdir, hresolve⟩ := hdir
  obtain ⟨store', hdelete, -⟩ := hsound.deletes "d".toList dir hmem howns hisdir hresolve
  rw [hdelete] at hfail
  cases hfail

end Dvt.ServiceFiles
