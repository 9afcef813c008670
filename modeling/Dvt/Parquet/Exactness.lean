import Dvt.Library.Decimals
import Dvt.Parquet.Writer

/-! A write to a Parquet dataset is exact, or leaves no file. -/

namespace Dvt.Parquet

open List

open Library

variable {path : Path} {template : List Segment}
variable {ρ κ τ β : Type} {env : Env ρ κ τ β} {request : ParquetWriteRequest}
  {files₀ : Dict Path (Content ρ β)}

variable {names : List Path}

def Tidy (files₀ : Dict Path (Content ρ β)) (st : State ρ β) : Prop :=
  (∀ path ∉ st.attempted, st.files.get? path = files₀.get? path) ∧
    ∀ path ∈ st.attempted, files₀.get? path = none

structure Stored (files₀ : Dict Path (Content ρ β)) (news : List (Path × List ρ))
    (files : Dict Path (Content ρ β)) : Prop where
  nodup : (news.map Prod.fst).Nodup
  fresh : ∀ file ∈ news, files₀.get? file.1 = none
  stored : ∀ file ∈ news, files.get? file.1 = some (.parquet file.2)
  others : ∀ path ∉ news.map Prod.fst, files.get? path = files₀.get? path

def Progress (files₀ : Dict Path (Content ρ β)) (news : List (Path × List ρ)) (st : State ρ β) : Prop :=
  st.attempted = news.map Prod.fst ∧ Stored files₀ news st.files

def Tracked (files₀ : Dict Path (Content ρ β)) (news : List (Path × List ρ)) (path : Path)
    (st : State ρ β) : Prop :=
  st.attempted = news.map Prod.fst ++ [path] ∧ Stored files₀ news st.files ∧ st.files.get? path = none

section

variable {news : List (Path × List ρ)} {st : State ρ β} {files : Dict Path (Content ρ β)}

section

variable (h : Stored files₀ news files)

include h

variable (hfree : files.get? path = none)

include hfree

lemma Stored.notMem : path ∉ news.map Prod.fst := by
  intro hmem
  obtain ⟨file, hfile, rfl⟩ := mem_map.mp hmem
  exact nomatch (h.stored file hfile).symm.trans hfree

lemma Stored.free : files₀.get? path = none := (h.others path (h.notMem hfree)).symm.trans hfree

lemma Stored.add (rows : List ρ) :
    Stored files₀ (news ++ [(path, rows)]) (files.set path (.parquet rows)) := by
  have hp := h.notMem hfree
  refine ⟨?_, fun file hfile => ?_, fun file hfile => ?_, fun path' hp' => ?_⟩
  · rw [map_append, nodup_append]
    refine ⟨h.nodup, nodup_singleton _, fun a ha b hb hab => hp ?_⟩
    rw [hab, mem_singleton.mp hb] at ha
    exact ha
  · rcases mem_append.mp hfile with hfile | hfile
    · exact h.fresh file hfile
    · rw [mem_singleton.mp hfile]
      exact h.free hfree
  · rw [Dict.get?_set]
    rcases mem_append.mp hfile with hfile | hfile
    · have hne : file.1 ≠ path := fun heq => hp (heq ▸ mem_map_of_mem hfile)
      rw [if_neg hne, h.stored file hfile]
    · rw [mem_singleton.mp hfile, if_pos rfl]
  · rw [map_append, mem_append, not_or] at hp'
    have hne : path' ≠ path := fun heq => hp'.2 (heq ▸ mem_singleton_self _)
    rw [Dict.get?_set, if_neg hne, h.others path' hp'.1]

end

lemma Progress.tidy (h : Progress files₀ news st) : Tidy files₀ st := by
  obtain ⟨ha, hs⟩ := h
  rw [Tidy, ha]
  refine ⟨hs.others, fun path hp => ?_⟩
  obtain ⟨file, hfile, rfl⟩ := mem_map.mp hp
  exact hs.fresh file hfile

lemma Tracked.tidy_of_others (h : Tracked files₀ news path st) {st' : State ρ β}
    (ha : st'.attempted = st.attempted)
    (ho : ∀ path' ≠ path, st'.files.get? path' = st.files.get? path') : Tidy files₀ st' := by
  obtain ⟨hn, hs, hfree⟩ := h
  rw [Tidy, ha, hn]
  refine ⟨fun path' hp' => ?_, fun path' hp' => ?_⟩
  · rw [mem_append, not_or] at hp'
    rw [ho path' fun heq => hp'.2 (heq ▸ mem_singleton_self _), hs.others path' hp'.1]
  · rcases mem_append.mp hp' with hp' | hp'
    · obtain ⟨file, hfile, rfl⟩ := mem_map.mp hp'
      exact hs.fresh file hfile
    · rw [mem_singleton.mp hp']
      exact hs.free hfree

lemma Tracked.tidy (h : Tracked files₀ news path st) : Tidy files₀ st :=
  h.tidy_of_others rfl fun _ _ => rfl

lemma files_makeDirs (path : Path) (st : State ρ β) : (makeDirs env path st).files = st.files := by
  rw [makeDirs]
  split <;> rfl

lemma attempted_makeDirs (path : Path) (st : State ρ β) :
    (makeDirs env path st).attempted = st.attempted := by
  rw [makeDirs]
  split <;> rfl

end

variable {news : List (Path × List ρ)} {rows : List ρ} {number : ℕ} {pre : State ρ β → Prop}
  {raised : ParquetError → State ρ β → Prop}

lemma meets_point {p : Point} (h : ∀ st, pre st → raised (.failed p) st) :
    Meets pre (point env p) (fun _ => pre) raised :=
  .ite (fun _ => .throw h) fun _ => .pure fun _ hst => hst

lemma meets_checked {α : Type} {x : Except ParquetError α} {post : α → State ρ β → Prop}
    (hok : ∀ a, x = .ok a → ∀ st, pre st → post a st) (herror : ∀ error st, pre st → raised error st) :
    Meets pre (checked x) post raised := by
  cases x with
  | ok a => exact .pure (hok a rfl)
  | error error => exact .throw fun st hst => herror error st hst

lemma meets_writeTable : Meets (Tracked files₀ news path)
      (tryCatch (writeTable env number path rows) fun error => do
        modify (removeFile path)
        throw error)
      (fun _ => Progress files₀ (news ++ [(path, rows)])) fun _ => Tidy files₀ := by
  refine .tryCatch (E := fun _ st => ∃ st₀, Tracked files₀ news path st₀ ∧ st.attempted = st₀.attempted ∧
    ∀ path' ≠ path, st.files.get? path' = st₀.files.get? path') ?_ fun error => ?_
  · intro st hst
    rw [writeTable]
    split
    · refine ⟨st, hst, ?_, fun path' hp' => ?_⟩
      · cases env.debris number <;> rfl
      · cases env.debris number with
        | none => rfl
        | some content => exact (Dict.get?_set ..).trans (if_neg hp')
    · refine ⟨?_, hst.2.1.add hst.2.2 rows⟩
      rw [map_append]
      exact hst.1
  · refine .bind (R := fun _ => Tidy files₀) (Meets.modify ?_) fun _ => .throw fun _ hst => hst
    rintro st ⟨st₀, hst₀, ha, ho⟩
    refine hst₀.tidy_of_others ha fun path' hp' => ?_
    rw [← ho path' hp']
    exact (Dict.get?_erase ..).trans (if_neg hp')

lemma meets_writeOneFile : Meets (Tracked files₀ news path) (writeOneFile env number path rows)
      (fun written st => written = rows.length ∧ Progress files₀ (news ++ [(path, rows)]) st)
      fun _ => Tidy files₀ := by
  refine (meets_point fun _ hst => hst.tidy).bind fun _ => ?_
  refine .bind (R := fun _ => Tracked files₀ news path) (Meets.modify fun st hst => ?_) fun _ => ?_
  · rw [Tracked, files_makeDirs, attempted_makeDirs]
    exact hst
  refine (meets_point fun _ hst => hst.tidy).bind fun _ => ?_
  exact meets_writeTable.bind fun _ => .pure fun _ hst => ⟨rfl, hst⟩

lemma meets_next {news : List (Path × List ρ)} :
    Meets (Progress files₀ news) (next : Run ρ β ℕ) (fun _ => Progress files₀ news) raised :=
  fun _ hst => hst

lemma meets_track :
    Meets (fun st => Progress files₀ news st ∧ st.files.get? path = none) (track path : Run ρ β Unit)
      (fun _ => Tracked files₀ news path) raised := by
  refine Meets.modify fun st hst => ⟨?_, hst.1.2, hst.2⟩
  rw [← hst.1.1]

lemma meets_checkFree : Meets (Progress files₀ news) (checkFree env number path)
      (fun _ st => Progress files₀ news st ∧ st.files.get? path = none) fun _ => Tidy files₀ := by
  refine (meets_point fun _ hst => hst.tidy).bind fun _ => Meets.get_bind fun st => ?_
  refine .ite (fun _ => .throw fun _ hst => hst.2.tidy) fun hfree => .pure ?_
  rintro st' ⟨rfl, hst⟩
  refine ⟨hst, ?_⟩
  rw [pathExists, Bool.or_eq_true, not_or] at hfree
  exact Option.not_isSome_iff_eq_none.mp hfree.1

variable {names' : List Path} {filename : Path}

def directory (env : Env ρ κ τ β) (names : List Path) : Path := joinSegments '/' (env.root :: names)

lemma posixJoin_eq {a b : Path} (ha : a ≠ []) (hl : a.getLast? ≠ some '/') (hh : b.head? ≠ some '/') :
    posixJoin a b = a ++ '/' :: b := by
  rw [posixJoin, if_neg hh, if_neg (not_or.mpr ⟨ha, hl⟩)]

lemma getLast?_root : env.root.getLast? ≠ some '/' := by
  intro hl
  have hne : env.root ≠ [] := env.target_ne_nil
  rw [List.getLast?_eq_getLast_of_ne_nil hne, Option.some.injEq] at hl
  exact rdropWhile_last_not (fun c => decide (c = '/')) env.target hne (decide_eq_true hl)

lemma directory_nil : directory env [] = env.root := by simp [directory, joinSegments]

lemma directory_of_ne_nil (h : names ≠ []) :
    directory env names = env.root ++ '/' :: joinSegments '/' names := joinSegments_cons env.root h

lemma joinSegments_ne_nil (hne : names ≠ []) (h : ∀ name ∈ names, IsSegment '/' name) :
    joinSegments '/' names ≠ [] := by
  obtain ⟨name, rest, rfl⟩ := exists_cons_of_ne_nil hne
  intro hnil
  by_cases hr : rest = []
  · subst hr
    simp only [joinSegments, intercalate_singleton] at hnil
    exact (h name mem_cons_self).1 hnil
  · rw [joinSegments_cons name hr] at hnil
    exact (h name mem_cons_self).1 (append_eq_nil_iff.mp hnil).1

lemma filePath_eq (hn : ∀ name ∈ names, IsSegment '/' name) (hf : IsSegment '/' filename) :
    filePath env (joinSegments '/' names) filename = directory env names ++ '/' :: filename := by
  have hh : filename.head? ≠ some '/' := fun hh => hf.2 (mem_of_mem_head? hh)
  have hroot : env.root ≠ [] := env.target_ne_nil
  by_cases hne : names = []
  · subst hne
    rw [filePath, if_pos (by simp [joinSegments]), directory_nil, posixJoin_eq hroot getLast?_root hh]
  · have hj := joinSegments_ne_nil hne hn
    have hfir : (joinSegments '/' names).head? ≠ some '/' := fun h => head?_joinSegments hn '/' h rfl
    rw [filePath, if_neg hj, posixJoin_eq hroot getLast?_root hfir, directory_of_ne_nil hne]
    refine posixJoin_eq (append_ne_nil_of_left_ne_nil hroot _) ?_ hh
    rw [List.getLast?_append, List.getLast?_cons]
    obtain ⟨last, hl⟩ := Option.ne_none_iff_exists'.mp (mt List.getLast?_eq_none_iff.mp hj)
    rw [hl]
    exact fun h => getLast?_joinSegments hn last hl (Option.some.inj h)

lemma dirname_append (dir : Path) (hf : IsSegment '/' filename) :
    dirname (dir ++ '/' :: filename) = dir := by
  have hj : joinSegments '/' ([dir] ++ [filename]) = dir ++ '/' :: filename := by simp [joinSegments]
  rw [dirname, ← hj, splitLast_joinSegments hf]
  simp [joinSegments]

lemma directory_injective (hn : ∀ name ∈ names, IsSegment '/' name)
    (hn' : ∀ name ∈ names', IsSegment '/' name) (h : directory env names = directory env names') :
    names = names' := by
  have hl : ∀ ns : List Path, ns ≠ [] → directory env ns ≠ env.root := by
    intro ns hne heq
    rw [directory_of_ne_nil hne] at heq
    have := congrArg List.length heq
    simp at this
  by_cases hne : names = []
  · subst hne
    by_contra hne'
    exact hl names' (fun h => hne' h.symm) (h.symm.trans directory_nil)
  · by_cases hne' : names' = []
    · subst hne'
      exact absurd (h.trans directory_nil) (hl names hne)
    · rw [directory_of_ne_nil hne, directory_of_ne_nil hne'] at h
      have hj := (List.cons.inj (append_cancel_left h)).2
      rw [← segments_joinSegments hn, ← segments_joinSegments hn', hj]

lemma below_directory (names : List Path) (filename : Path) :
    below env.root (directory env names ++ '/' :: filename) = true := by
  rw [below, isPrefixOf_iff_prefix]
  by_cases hne : names = []
  · rw [hne, directory_nil]
    exact ⟨filename, by simp⟩
  · rw [directory_of_ne_nil hne]
    exact ⟨joinSegments '/' names ++ '/' :: filename, by simp⟩

variable {done : List ρ}

def Named (env : Env ρ κ τ β) (request : ParquetWriteRequest) (rows : List ρ) (names : List Path) : Prop :=
  rows ≠ [] → ∃ values : List (Option τ), values.length = request.partitionOn.length ∧
    (∀ row ∈ rows, partitionValues env.arrow env.pandas request.partitionOn row = .ok values) ∧
    directoryNames env.arrow request.partitionOn values = .ok names

structure FileOk (env : Env ρ κ τ β) (request : ParquetWriteRequest) (file : Path × List ρ) : Prop where
  below : below env.root file.1 = true
  cap : ∀ cap, request.rowCap = some cap → file.2.length ≤ cap
  placed : ∃ names, dirname file.1 = directory env names ∧ Named env request file.2 names

def Inv (env : Env ρ κ τ β) (request : ParquetWriteRequest) (files₀ : Dict Path (Content ρ β)) (done : List ρ)
    (news : List (Path × List ρ)) (st : State ρ β) : Prop :=
  Progress files₀ news st ∧ (∀ file ∈ news, FileOk env request file) ∧ news.flatMap Prod.snd = done

def summary (news : List (Path × List ρ)) : PartitionWriteResult :=
  ⟨(news.flatMap Prod.snd).length, news.map Prod.fst⟩

def Adds (env : Env ρ κ τ β) (request : ParquetWriteRequest) (files₀ : Dict Path (Content ρ β))
    (done rows : List ρ) (news : List (Path × List ρ)) (result : PartitionWriteResult) (st : State ρ β) : Prop :=
  ∃ more, Inv env request files₀ (done ++ rows) (news ++ more) st ∧ result = summary more

def AddsRows {α : Type} (env : Env ρ κ τ β) (request : ParquetWriteRequest)
    (files₀ : Dict Path (Content ρ β)) (f : α → Run ρ β PartitionWriteResult) (x : α) (rows : List ρ) : Prop :=
  ∀ done news, Meets (Inv env request files₀ done news) (f x) (Adds env request files₀ done rows news)
    fun _ => Tidy files₀

lemma addsRows_collect {α : Type} {f : α → Run ρ β PartitionWriteResult} {rowsOf : α → List ρ} {xs : List α}
    (h : ∀ x ∈ xs, AddsRows env request files₀ f x (rowsOf x)) :
    AddsRows env request files₀ (collect f) xs (xs.flatMap rowsOf) := by
  induction xs with
  | nil =>
    intro done news
    refine .pure fun st hst => ⟨[], ?_, rfl⟩
    simpa using hst
  | cons x xs ih =>
    intro done news
    refine (h x mem_cons_self done news).bind fun first => Meets.exists_pre fun more => ?_
    intro st hst
    obtain ⟨hst, rfl⟩ := hst
    refine Meets.bind (ih (fun y hy => h y (mem_cons_of_mem x hy)) (done ++ rowsOf x) (news ++ more))
      (fun rest => Meets.pure ?_) st hst
    rintro st' ⟨more', hst', rfl⟩
    refine ⟨more ++ more', ?_, by simp [PartitionWriteResult.append, summary]⟩
    rw [flatMap_cons, ← append_assoc, ← append_assoc]
    exact hst'

lemma addsRows_writeChunk {partitionIndex : ℕ} (hnam : ∀ name ∈ names, IsSegment '/' name)
    (hcap : ∀ cap, request.rowCap = some cap → rows.length ≤ cap) (hn : Named env request rows names) :
    AddsRows env request files₀ (writeChunk env template partitionIndex (joinSegments '/' names)) rows rows := by
  intro done news st hst
  obtain ⟨hst, hfil, hdone⟩ := hst
  refine Meets.bind meets_next (fun number => ?_) st hst
  refine Meets.bind (R := fun filename st => IsSegment '/' filename ∧ Progress files₀ news st)
    (meets_checked (fun filename hok st hst => ⟨isSegment_of_render hok, hst⟩) fun _ _ hst => hst.tidy)
    fun filename => Meets.assume fun hf => ?_
  refine .bind (R := fun _ => Progress files₀ news)
    (meets_checked (fun _ _ _ hst => hst) fun _ _ hst => hst.tidy) fun _ => ?_
  refine meets_checkFree.bind fun _ => meets_track.bind fun _ => meets_writeOneFile.bind fun written =>
    .pure fun st hst => ?_
  obtain ⟨rfl, hst⟩ := hst
  rw [filePath_eq hnam hf] at hst ⊢
  refine ⟨[(_, rows)], ⟨hst, fun file hfile => ?_, ?_⟩, by simp [summary]⟩
  · rcases mem_append.mp hfile with hfile | hfile
    · exact hfil file hfile
    · rw [mem_singleton.mp hfile]
      exact ⟨below_directory names filename, hcap, names, dirname_append _ hf, hn⟩
  · simp [hdone]

lemma Named.of_subset {chunk : List ρ} (h : Named env request rows names)
    (hs : ∀ row ∈ chunk, row ∈ rows) : Named env request chunk names := by
  intro hne
  obtain ⟨row, hrow⟩ := exists_mem_of_ne_nil _ hne
  obtain ⟨values, hl, hv, hn⟩ := h (ne_nil_of_mem (hs row hrow))
  exact ⟨values, hl, fun row hrow => hv row (hs row hrow), hn⟩

variable {partitionIndex : ℕ}

lemma addsRows_splitChunks (names : List Path) (hrc : request.rowCap ≠ some 0)
    (hnam : ∀ name ∈ names, IsSegment '/' name) (hn : Named env request rows names) :
    AddsRows env request files₀ (collect (writeChunk env template partitionIndex (joinSegments '/' names)))
      (splitChunks request.rowCap rows) rows := by
  have hchu : ∀ chunk ∈ splitChunks request.rowCap rows, AddsRows env request files₀
      (writeChunk env template partitionIndex (joinSegments '/' names)) chunk (id chunk) :=
    fun chunk hc => addsRows_writeChunk hnam (fun cap hcap => by
        rw [hcap] at hc
        obtain ⟨i, -, rfl⟩ := mem_map.mp hc
        exact length_take_le ..)
      (hn.of_subset fun _ hrow =>
        flatten_splitChunks hrc rows ▸ mem_flatten_of_mem hc hrow)
  have hcol := addsRows_collect hchu
  rw [flatMap_id, flatten_splitChunks hrc] at hcol
  exact hcol

lemma addsRows_writeGroup {group : List κ × List ρ}
    (hrc : request.rowCap ≠ some 0) (hco : ∀ column ∈ request.partitionOn, IsColumn column)
    (hgroup : group ∈ env.pandas.groupby request.partitionOn rows) :
    AddsRows env request files₀ (writeGroup env template request partitionIndex) group group.2 := by
  intro done news
  refine .bind (R := fun dir st => relativeDir env.arrow request.partitionOn group.1 = .ok dir ∧
    Inv env request files₀ done news st) (meets_checked (fun _ hok _ hst => ⟨hok, hst⟩)
      fun _ _ hst => hst.1.tidy) fun dir => Meets.assume fun hdir => ?_
  obtain ⟨values, hv, hdir⟩ := bind_eq_ok.mp hdir
  obtain ⟨names, hn, hdir⟩ := bind_eq_ok.mp hdir
  obtain rfl := Except.ok.inj hdir
  have hkey := env.pandas.groupby_key request.partitionOn rows group hgroup
  refine addsRows_splitChunks _ hrc (isSegment_of_mem_directoryNames hco hn) (fun hne => ?_) done news
  obtain ⟨row, hrow⟩ := exists_mem_of_ne_nil _ hne
  refine ⟨values, length_normalizeValues ?_ hv, fun row hrow => ?_, hn⟩
  · rw [hkey row hrow, length_map]
  · rw [partitionValues, ← hkey row hrow, hv]

def writtenRows (env : Env ρ κ τ β) (request : ParquetWriteRequest) (rows : List ρ) : List ρ :=
  if request.partitionOn.isEmpty then rows
  else (env.pandas.groupby request.partitionOn rows).flatMap Prod.snd

lemma perm_writtenRows (rows : List ρ) : (writtenRows env request rows).Perm rows := by
  rw [writtenRows]
  split
  · exact List.Perm.refl rows
  · exact env.pandas.groupby_perm request.partitionOn rows

lemma addsRows_writeAdvancedPartition (hrc : request.rowCap ≠ some 0)
    (hco : ∀ column ∈ request.partitionOn, IsColumn column) (partition : List ρ × ℕ) :
    AddsRows env request files₀ (writeAdvancedPartition env template request) partition
      (writtenRows env request partition.1) := by
  intro done news
  rw [writtenRows]
  refine (meets_point fun _ hst => hst.1.tidy).bind fun _ => .ite (fun hn => ?_) fun hs => ?_
  · have hco : request.partitionOn = [] := List.isEmpty_iff.mp hn
    rw [if_pos hn]
    refine addsRows_splitChunks [] hrc nofun (fun _ => ⟨[], ?_⟩) done news
    rw [hco]
    exact ⟨rfl, fun _ _ => rfl, rfl⟩
  · rw [if_neg hs]
    refine (meets_point fun _ hst => hst.1.tidy).bind fun _ => ?_
    exact addsRows_collect (fun group hgroup => addsRows_writeGroup hrc hco hgroup) done news

lemma meets_writeSentinel
    (he : request.mode ≠ .append → ∀ path, below env.root path = true → files₀.get? path = none)
    (result : PartitionWriteResult) :
    Meets (Adds env request files₀ [] rows [] result) (writeSentinel env template request result)
      (Adds env request files₀ [] rows []) fun _ => Tidy files₀ := by
  refine .ite (fun hn => ?_) fun _ => .pure fun _ hst => hst
  rw [Bool.and_eq_true, decide_eq_true_eq] at hn
  refine Meets.exists_pre fun more => ?_
  rintro st ⟨⟨hst, hfil, hrows⟩, rfl⟩
  have hmore : more = [] := map_eq_nil_iff.mp (List.isEmpty_iff.mp hn.1)
  subst hmore
  refine Meets.bind meets_next (fun number => ?_) st hst
  refine Meets.bind (R := fun filename st => IsSegment '/' filename ∧ Progress files₀ [] st)
    (meets_checked (fun filename hok st hst => ⟨isSegment_of_render hok, hst⟩) fun _ _ hst => hst.tidy)
    fun filename => Meets.assume fun hf => ?_
  have hp : filePath env [] filename = directory env [] ++ '/' :: filename :=
    filePath_eq (forall_mem_nil _) hf
  rw [hp]
  refine .bind (R := fun _ => Tracked files₀ [] (directory env [] ++ '/' :: filename))
    (meets_track.strengthen fun st hst => ⟨hst, ?_⟩) fun _ => ?_
  · rw [hst.2.others _ (not_mem_nil)]
    exact he hn.2 _ (below_directory [] filename)
  refine meets_writeOneFile.bind fun written => .pure fun st hst => ?_
  obtain ⟨rfl, hst⟩ := hst
  refine ⟨[(_, [])], ⟨hst, fun file hfile => ?_, ?_⟩, rfl⟩
  · rw [mem_singleton.mp hfile]
    exact ⟨below_directory [] filename, fun _ _ => Nat.zero_le _, [], dirname_append _ hf, fun h => absurd rfl h⟩
  · simpa using hrows

lemma meets_writePartitions (hrc : request.rowCap ≠ some 0)
    (hco : ∀ column ∈ request.partitionOn, IsColumn column)
    (he : request.mode ≠ .append → ∀ path, below env.root path = true → files₀.get? path = none)
    (partitions : List (List ρ)) :
    Meets (Progress files₀ []) (writePartitions env template request partitions)
      (Adds env request files₀ [] (partitions.flatMap (writtenRows env request)) []) fun _ => Tidy files₀ := by
  have hp : ∀ partition ∈ partitions.zipIdx, AddsRows env request files₀
      (writeAdvancedPartition env template request) partition (writtenRows env request partition.1) :=
    fun partition _ => addsRows_writeAdvancedPartition hrc hco partition
  have hc := addsRows_collect hp [] []
  have hrows : (partitions.zipIdx.flatMap fun partition => writtenRows env request partition.1) =
      partitions.flatMap (writtenRows env request) := by
    rw [← flatMap_map, zipIdx_map_fst]
  rw [hrows] at hc
  refine (hc.strengthen fun st hst => ⟨hst, nofun, rfl⟩).bind fun result => ?_
  refine .bind (R := fun _ => Adds env request files₀ [] (partitions.flatMap (writtenRows env request)) [] result)
    (meets_point fun st hst => ?_) fun _ => meets_writeSentinel he result
  obtain ⟨more, hst, -⟩ := hst
  exact hst.1.tidy

variable {st : State ρ β}

lemma files_removeEmptyParents (root : Path) (fuel : ℕ) (current : Path) (st : State ρ β) :
    (removeEmptyParents env root fuel current st).files = st.files := by
  induction fuel generalizing current st with
  | zero => rfl
  | succ fuel ih =>
    rw [removeEmptyParents]
    split
    · rfl
    · split
      · rfl
      · split
        · rfl
        · rw [ih]

lemma files_cleanupEmptyParents (paths : List Path) (root : Path) (st : State ρ β) :
    (cleanupEmptyParents env paths root st).files = st.files := by
  rw [cleanupEmptyParents]
  split
  · rfl
  · generalize (paths.map dirname).eraseDups.mergeSort (fun a b => b.count '/' ≤ a.count '/') = candidates
    induction candidates generalizing st with
    | nil => rfl
    | cons candidate candidates ih => rw [foldl_cons, ih, files_removeEmptyParents]

lemma get?_foldl_removeFile (paths : List Path) (st : State ρ β) (path : Path) :
    (paths.foldl (fun st path => removeFile path st) st).files.get? path =
      if path ∈ paths then none else st.files.get? path := by
  induction paths generalizing st with
  | nil => rfl
  | cons first paths ih =>
    rw [foldl_cons, ih, removeFile, Dict.get?_erase]
    by_cases hmem : path ∈ paths
    · simp [hmem]
    · by_cases heq : path = first
      · simp [heq]
      · simp [heq]

lemma get?_removeAttempted (h : Tidy files₀ st) (path : Path) :
    (removeAttempted env st).files.get? path = files₀.get? path := by
  rw [removeAttempted, files_cleanupEmptyParents, get?_foldl_removeFile]
  split
  · next hmem => exact (h.2 path hmem).symm
  · next hmem => exact h.1 path hmem

section

variable {partitions : List (List ρ)}

lemma no_files_of_plan {plan : AdvancedWritePlan} {n : ℕ} (hmode : request.mode ≠ .overwrite)
    (h : planAdvancedWrite env request n st = .ok plan) (ha : request.mode ≠ .append) (path : Path)
    (hp : below env.root path = true) : st.files.get? path = none := by
  obtain ⟨_, -, h⟩ := bind_eq_ok.mp h
  obtain ⟨_, -, h⟩ := bind_eq_ok.mp h
  obtain ⟨_, -, h⟩ := bind_eq_ok.mp h
  obtain ⟨_, hi, -⟩ := bind_eq_ok.mp h
  have hc : request.mode = .create := by
    cases hm : request.mode with
    | create => rfl
    | overwrite => exact absurd hm hmode
    | append => exact absurd hm ha
  rw [inspectTarget, hc] at hi
  obtain ⟨_, hfile, hi⟩ := bind_eq_ok.mp hi
  obtain ⟨_, he, -⟩ := bind_eq_ok.mp hi
  rw [rejectIf_eq_ok] at hfile he
  have hroot : env.root ≠ [] := env.target_ne_nil
  by_contra hs
  have hkey : path ∈ st.files.keys := by
    rw [Dict.mem_keys]
    exact Option.ne_none_iff_exists'.mp hs
  rw [isNonEmptyDirectory, hfile] at he
  simp only [Bool.false_eq_true, if_false] at he
  split at he
  · rw [Bool.or_eq_false_iff, any_eq_false] at he
    exact he.1 path hkey hp
  · rw [listRecursive, if_neg hroot, hfile] at he
    simp only [Bool.false_eq_true, if_false, Bool.not_eq_false', List.isEmpty_iff,
      filter_eq_nil_iff] at he
    exact he path hkey hp

def Written (env : Env ρ κ τ β) (request : ParquetWriteRequest) (partitions : List (List ρ))
    (files₀ : Dict Path (Content ρ β)) (result : ParquetWriteResult) (files : Dict Path (Content ρ β)) : Prop :=
  ∃ news : List (Path × List ρ), Stored files₀ news files ∧
    (news.flatMap Prod.snd).Perm partitions.flatten ∧
    (∀ file ∈ news, below env.root file.1 = true) ∧
    (∀ file ∈ news, ∀ cap, request.rowCap = some cap → file.2.length ≤ cap) ∧
    (∀ file ∈ news, ∀ row ∈ file.2, ∀ row' ∈ file.2,
      partitionValues env.arrow env.pandas request.partitionOn row =
        partitionValues env.arrow env.pandas request.partitionOn row') ∧
    (∀ file ∈ news, ∀ file' ∈ news, ∀ row ∈ file.2, ∀ row' ∈ file'.2,
      partitionValues env.arrow env.pandas request.partitionOn row ≠
        partitionValues env.arrow env.pandas request.partitionOn row' → dirname file.1 ≠ dirname file'.1) ∧
    result = ⟨.advanced, partitions.flatten.length, news.length, news.map Prod.fst⟩

section

variable (hco : ∀ column ∈ request.partitionOn, IsColumn column)

include hco

lemma values_eq_of_dirname
    {file file' : Path × List ρ} (hfile : FileOk env request file) (hfile' : FileOk env request file')
    {row row' : ρ} (hrow : row ∈ file.2) (hrow' : row' ∈ file'.2) (h : dirname file.1 = dirname file'.1) :
    partitionValues env.arrow env.pandas request.partitionOn row =
      partitionValues env.arrow env.pandas request.partitionOn row' := by
  obtain ⟨names, hdir, hnam⟩ := hfile.placed
  obtain ⟨names', hdir', hnam'⟩ := hfile'.placed
  obtain ⟨values, hl, hv, hn⟩ := hnam (ne_nil_of_mem hrow)
  obtain ⟨values', hl', hv', hn'⟩ := hnam' (ne_nil_of_mem hrow')
  obtain rfl := directory_injective (isSegment_of_mem_directoryNames hco hn)
    (isSegment_of_mem_directoryNames hco hn') (hdir.symm.trans (h.trans hdir'))
  rw [hv row hrow, hv' row' hrow', directoryNames_inj hl hl' hn hn']

lemma written_of_adds {result : PartitionWriteResult}
    (h : Adds env request files₀ [] (partitions.flatMap (writtenRows env request)) [] result st) :
    Written env request partitions files₀ ⟨.advanced, result.rows, result.paths.length, result.paths⟩
      st.files := by
  obtain ⟨news, ⟨⟨-, hs⟩, hf, hrows⟩, rfl⟩ := h
  have hp : (news.flatMap Prod.snd).Perm partitions.flatten := by
    rw [nil_append] at hrows
    rw [hrows, ← flatMap_id]
    exact List.Perm.flatMap_left partitions fun rows _ => perm_writtenRows rows
  refine ⟨news, hs, hp, fun file hfile => (hf file hfile).below, fun file hfile =>
    (hf file hfile).cap, fun file hfile row hrow row' hrow' => ?_,
    fun file hfile file' hfile' row hrow row' hrow' hne hdir => hne ?_, ?_⟩
  · exact values_eq_of_dirname hco (hf file hfile) (hf file hfile) hrow hrow' rfl
  · exact values_eq_of_dirname hco (hf file hfile) (hf file' hfile') hrow hrow' hdir
  · rw [summary, hp.length_eq, length_map]

end

lemma of_validateRequest {t : Texts} {u : Unit} (h : validateRequest t request = .ok u) :
    request.rowCap ≠ some 0 ∧ ∀ column ∈ request.partitionOn, IsColumn column := by
  obtain ⟨_, -, h⟩ := bind_eq_ok.mp h
  obtain ⟨_, -, h⟩ := bind_eq_ok.mp h
  obtain ⟨_, -, h⟩ := bind_eq_ok.mp h
  obtain ⟨_, hco, h⟩ := bind_eq_ok.mp h
  obtain ⟨_, hcap, -⟩ := bind_eq_ok.mp h
  rw [rejectIf_eq_ok, decide_eq_false_iff_not] at hcap
  exact ⟨hcap, isColumn_of_validatePartitionColumns hco⟩

def SameFiles (files₀ : Dict Path (Content ρ β)) (st : State ρ β) : Prop :=
  ∀ path, st.files.get? path = files₀.get? path

lemma meets_planned (hmode : request.mode ≠ .overwrite) :
    Meets (fun st => st.files = files₀) (planned env request partitions.length)
      (fun _ st => (request.mode ≠ .append → ∀ path, below env.root path = true → files₀.get? path = none) ∧
        st.files = files₀) fun _ => SameFiles files₀ := by
  refine Meets.get_bind fun st => meets_checked (fun plan hplan st' hst' => ?_) fun _ st' hst' path => ?_
  · obtain ⟨rfl, rfl⟩ := hst'
    exact ⟨no_files_of_plan hmode hplan, rfl⟩
  · rw [hst'.2]

lemma files_prepareAdvancedTarget (hmode : request.mode ≠ .overwrite) (st : State ρ β) :
    (prepareAdvancedTarget env request st).files = st.files := by
  rw [prepareAdvancedTarget]
  split
  · exact files_makeDirs ..
  · next ho => exact absurd ho hmode
  · rfl

lemma meets_writeAdvanced (hmode : request.mode ≠ .overwrite) (hrc : request.rowCap ≠ some 0)
    (hco : ∀ column ∈ request.partitionOn, IsColumn column) :
    Meets (fun st => st.files = files₀) (writeAdvanced env request partitions)
      (fun result st => Written env request partitions files₀ result st.files) fun _ => SameFiles files₀ := by
  have hs : ∀ st : State ρ β, st.files = files₀ → SameFiles files₀ st := fun st hst path => by rw [hst]
  refine (meets_point hs).bind fun _ => (meets_point hs).bind fun _ => ?_
  refine (meets_planned hmode).bind fun plan => Meets.assume fun he => ?_
  refine .bind (R := fun _ st => st.files = files₀)
    (.ite (fun _ => Meets.forM fun path _ => meets_point hs) fun _ => .pure fun _ hst => hst) fun _ => ?_
  refine (meets_point hs).bind fun _ => (meets_point hs).bind fun _ => ?_
  refine .bind (R := fun _ st => st.files = files₀)
    (Meets.modify fun st hst => (files_prepareAdvancedTarget hmode st).trans hst) fun _ => ?_
  refine .bind (R := fun _ => Progress files₀ []) (Meets.modify ?_) fun _ => ?_
  · rintro st rfl
    exact ⟨rfl, nodup_nil, nofun, nofun, fun _ _ => rfl⟩
  refine .bind (R := fun result => Adds env request files₀ []
    (partitions.flatMap (writtenRows env request)) [] result)
    ((meets_writePartitions hrc hco he partitions).tryCatch fun error => ?_)
    fun result => .pure fun st hst => written_of_adds hco hst
  exact .bind (R := fun _ => SameFiles files₀) (Meets.modify fun st hst => get?_removeAttempted hst)
    fun _ => .throw fun _ hst => hst

theorem exact_or_no_trace (env : Env ρ κ τ β) (request : ParquetWriteRequest) (partitions : List (List ρ))
    (st : State ρ β) (hlayout : request.layout = .advanced) (hmode : request.mode ≠ .overwrite) :
    (∀ error st', writeDataframe env request partitions st = .error error st' →
        ∀ path, st'.files.get? path = st.files.get? path) ∧
      ∀ result st', writeDataframe env request partitions st = .ok result st' →
        Written env request partitions st.files result st'.files := by
  have hspec : Meets (fun st' : State ρ β => st'.files = st.files) (writeDataframe env request partitions)
      (fun result st' => Written env request partitions st.files result st'.files)
      fun _ => SameFiles st.files := by
    refine .bind (R := fun _ st' => (request.rowCap ≠ some 0 ∧
      ∀ column ∈ request.partitionOn, IsColumn column) ∧ st'.files = st.files)
      (meets_checked (fun _ hok st' hst' => ⟨of_validateRequest hok, hst'⟩) fun _ st' hst' path => ?_)
      fun _ => Meets.assume fun hvalid => ?_
    · rw [hst']
    · rw [hlayout]
      exact meets_writeAdvanced hmode hvalid.1 hvalid.2
  have hends := hspec st rfl
  constructor
  · intro error st' hrun
    rw [hrun] at hends
    exact hends
  · intro result st' hrun
    rw [hrun] at hends
    exact hends

def sampleArrow : Arrow ℕ ℕ where
  isNull _ := false
  cast _ v := some v
  isHiveNull _ := false
  render _ v := some (String.ofList (str v))
  render_inj _ _ _ _ hv hw :=
    Int.ofNat.inj (str_injective (String.ofList_injective (Option.some.inj (hv.trans hw.symm))))

def samplePandas : Pandas ℕ ℕ where
  value _ row := row % 2
  groupby columns rows := rows.map fun row => (columns.map fun _ => row % 2, [row])
  groupby_perm _ rows := by simp [flatMap_map]
  groupby_key _ rows group hgroup row hrow := by
    obtain ⟨row', -, rfl⟩ := mem_map.mp hgroup
    rw [mem_singleton.mp hrow]

def sampleEnv : Env ℕ ℕ ℕ Unit where
  texts := ⟨id, id⟩
  pandas := samplePandas
  arrow := sampleArrow
  protocol := .directory
  target := ['d', 's']
  target_ne_nil := by decide
  normalize := id
  uuid _ := []
  extractIncrement _ _ := none
  debris _ := none
  fails _ := false

def sampleRequest : ParquetWriteRequest := ⟨['d', 's'], .create, none, some 1, [['p']], 1⟩

def sampleState : State ℕ Unit := ⟨Dict.empty, [], 0, []⟩

def writtenCounts : EStateM.Result ParquetError (State ℕ Unit) ParquetWriteResult → Option (ℕ × ℕ)
  | .ok result _ => some (result.rowsWritten, result.filesWritten)
  | .error _ _ => none

lemma returned_of_writtenCounts {r : EStateM.Result ParquetError (State ℕ Unit) ParquetWriteResult}
    {counts : ℕ × ℕ} (h : writtenCounts r = some counts) : ∃ result st, r = .ok result st := by
  cases r with
  | ok result st => exact ⟨result, st, rfl⟩
  | error error st => exact nomatch h

theorem written_sampleRequest : ∃ result st',
    writeDataframe sampleEnv sampleRequest [[0, 1], [2]] sampleState = .ok result st' ∧
      Written sampleEnv sampleRequest [[0, 1], [2]] sampleState.files result st'.files := by
  have hcounts : writtenCounts (writeDataframe sampleEnv sampleRequest [[0, 1], [2]] sampleState) =
      some (3, 3) := by
    decide +kernel
  obtain ⟨result, st', hok⟩ := returned_of_writtenCounts hcounts
  have hmode : sampleRequest.mode ≠ .overwrite := by decide
  exact ⟨result, st', hok, (exact_or_no_trace sampleEnv sampleRequest _ sampleState rfl hmode).2 result st' hok⟩

end

end Dvt.Parquet
