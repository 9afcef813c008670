import Dvt.Writes.Emptying

/-! What a staged write leaves in its target when it returns and when it raises. -/

namespace Dvt.Writes

open List

open Library Library.Sql Function

variable {V : Type} {w : Write V} {fails : Statement → Bool} {inserted columns : List String}
  {f : FrameRow V → Row V} {D : Database V} {old left staged : List (Row V)}

def Write.rows (w : Write V) : List (FrameRow V) := w.ddf.partitions.flatten

def copyStatement (inserted : List String) : Statement := if inserted = [] then .copyDefaults else .copy

def copiedRows (w : Write V) (inserted : List String) (staged : List (Row V)) : List (Row V) :=
  staged.mapIdx fun i row => stored w.table inserted (w.fill (copyStatement inserted) i) row

lemma copiedRows_nil (staged : List (Row V)) :
    ((List.replicate staged.length fun _ => none).mapIdx fun i row =>
      stored w.table [] (w.fill .copyDefaults i) row) = copiedRows w [] staged := by
  refine ext_getElem (by simp [copiedRows]) fun i _ _ => ?_
  simp only [copiedRows, getElem_mapIdx]
  rfl

lemma insertInto_eq_some {key : TableKey} {table : Table} {fill : ℕ → Row V} {rows : List (Row V)}
    {db db' : Database V} (hold : db key = some old) (h : insertInto key table inserted fill rows db = some db') :
    db' = update db key
      (some (old ++ rows.mapIdx fun i row => stored table inserted (fill i) row)) := by
  rw [insertInto, hold] at h
  simp only at h
  split at h
  · cases h
  · exact (Option.some.inj h).symm

lemma meets_copyRows (fails : Statement → Bool) (inserted : List String) :
    Meets (fun db => db w.staging = some staged ∧ db w.target = some left)
      (copyRows w fails inserted staged.length)
      (fun _ db => db w.target = some (left ++ copiedRows w inserted staged) ∧
        (inserted ≠ [] ∨ staged ≠ [] → fails (copyStatement inserted) = false))
      (fun error db => db w.target = some left ∧
        error = .statement (copyStatement inserted) ∧ (inserted ≠ [] ∨ staged ≠ [])) := by
  refine .ite (fun hi => ?_) fun hi => .ite (fun hrows => ?_) fun hrows => ?_
  · rw [copyStatement, if_neg hi]
    refine meets_transaction (fun db db' hdb hfails he => ?_) fun db hdb _ =>
      ⟨hdb.2, rfl, .inl hi⟩
    rw [copyStaged, hdb.1] at he
    rw [insertInto_eq_some hdb.2 he, update_self, copiedRows, copyStatement, if_neg hi]
    exact ⟨rfl, fun _ => hfails⟩
  · obtain rfl := not_not.mp hi
    have hs : staged ≠ [] := fun h => hrows (h ▸ rfl)
    refine meets_transaction (fun db db' hdb hfails he => ?_) fun db hdb _ =>
      ⟨hdb.2, rfl, .inr hs⟩
    rw [insertInto_eq_some hdb.2 he, update_self, copiedRows_nil]
    exact ⟨rfl, fun _ => hfails⟩
  · obtain rfl := not_not.mp hi
    obtain rfl := length_eq_zero_iff.mp (not_not.mp hrows)
    refine .pure fun db hdb => ⟨?_, ?_⟩
    · simpa [copiedRows] using hdb.2
    · simp

/-- Either nothing has touched the target, for one of the causes, or the copy failed after the
target was emptied. -/
def WriteRaised (w : Write V) (fails : Statement → Bool) (inserted columns : List String)
    (old staged : List (Row V)) (error : WriteError) (db : Database V) : Prop :=
  (db w.target = some old ∧ (StageCause w fails error ∨ ¬ w.Visible)) ∨
  (db w.target = some (remaining w old staged) ∧
    error = .statement (copyStatement inserted) ∧ (inserted ≠ [] ∨ staged ≠ []) ∧
    ¬ (w.rows ≠ [] ∧ columns ≠ [] ∧ inserted = []) ∧
    (w.request.mode = .upsert → w.Visible))

def Written (w : Write V) (fails : Statement → Bool) (inserted columns : List String)
    (old staged : List (Row V)) (written : ℕ) (db : Database V) : Prop :=
  db w.target = some (remaining w old staged ++ copiedRows w inserted staged) ∧
    (inserted ≠ [] ∨ staged ≠ [] → fails (copyStatement inserted) = false) ∧
    written = w.rows.length ∧
    ¬ (w.rows ≠ [] ∧ columns ≠ [] ∧ inserted = []) ∧
    (w.request.mode = .upsert → w.Visible)

lemma meets_stagedWrite (fails : Statement → Bool) (ha : Aligns w inserted columns f)
    (hfresh : w.Fresh D) (hold : D w.target = some old) :
    Meets (· = update D w.staging (some [])) (stagedWrite w fails inserted)
      (Written w fails inserted columns old (w.rows.map f))
      (WriteRaised w fails inserted columns old (w.rows.map f)) := by
  have hst := hfresh.target_ne_staging hold
  refine ((meets_processPartitions ha w.ddf.partitions (fun _ h => h) 0 []).mono_raised ?_).bind
    fun stagedRows => Meets.assume fun hs => ?_
  · rintro error db ⟨⟨staged, rfl⟩, hc⟩
    exact .inl ⟨(update_of_ne hst ..).trans hold, .inl hc⟩
  refine ((meets_emptyTarget hfresh hold).mono_raised ?_).bind fun _ => ?_
  · rintro error db ⟨hdb, statement, rfl, hcopy, hd, hc⟩
    exact .inl ⟨hdb, hc.imp_left fun hfails => ⟨hfails, hcopy, hd⟩⟩
  rw [show stagedRows = (w.rows.map f).length from hs.1.trans (length_map f).symm]
  intro db hdb
  refine ((meets_copyRows fails inserted).mono_raised ?_).bind (fun _ => .pure ?_) db ⟨hdb.1, hdb.2.1⟩
  · rintro error db' ⟨hdb', herror, hsome⟩
    exact .inr ⟨hdb', herror, hsome, hs.2, hdb.2.2⟩
  · intro db' hdb'
    exact ⟨hdb'.1, hdb'.2, length_map .., hs.2, hdb.2.2⟩

section

variable {error : WriteError} {db : Database V} {written : ℕ} {rows : Option (List (Row V))}

section

variable (hst : w.target ≠ w.staging)

include hst

lemma WriteRaised.update_staging (h : WriteRaised w fails inserted columns old staged error db) :
    WriteRaised w fails inserted columns old staged error (update db w.staging rows) := by
  rw [WriteRaised, update_of_ne hst]
  exact h

lemma Written.update_staging (h : Written w fails inserted columns old staged written db) :
    Written w fails inserted columns old staged written (update db w.staging rows) := by
  rw [Written, update_of_ne hst]
  exact h

end

lemma meets_withStaging {body : Run V ℕ} (hfresh : w.Fresh D) (hold : D w.target = some old)
    (hb : Meets (· = update D w.staging (some [])) body (Written w fails inserted columns old staged)
      (WriteRaised w fails inserted columns old staged)) :
    Meets (· = D) (withStaging w fails body) (Written w fails inserted columns old staged)
      (fun error db => WriteRaised w fails inserted columns old staged error db ∨
        error = .statement .dropStaging ∧ fails .dropStaging = true) := by
  have hst := hfresh.target_ne_staging hold
  refine .bind (R := fun _ db => db = update D w.staging (some [])) ?_ fun _ => ?_
  · exact meets_effect (createTable_eq (hfresh.staging _)) rfl fun hfails =>
      .inl (.inl ⟨hold, .inl ⟨hfails, nofun, nofun⟩⟩)
  refine .bind (R := Written w fails inserted columns old staged) ?_ fun written => ?_
  · refine hb.tryCatch fun error => ?_
    refine .bind (R := fun _ => WriteRaised w fails inserted columns old staged error) ?_
      fun _ => .throw fun _ hdb => .inl hdb
    refine .tryCatch (E := fun _ => WriteRaised w fails inserted columns old staged error) ?_
      fun _ => .pure fun _ hdb => hdb
    refine meets_transaction (fun db db' hdb _ he => ?_) fun _ hdb _ => hdb
    obtain rfl := Option.some.inj he
    exact hdb.update_staging hst
  · refine .bind (R := fun _ => Written w fails inserted columns old staged written) ?_
      fun _ => .pure fun _ hdb => hdb
    refine meets_transaction (fun db db' hdb _ he => ?_) fun db hdb hc => ?_
    · obtain rfl := Option.some.inj he
      exact hdb.update_staging hst
    · exact .inr ⟨rfl, hc.resolve_right (Option.some_ne_none _)⟩

end

variable {alignment : ColumnAlignment V}

lemma meets_reflect (hold : D w.target = some old)
    {raised : WriteError → Database V → Prop} (h : fails .reflect = true → raised (.statement .reflect) D) :
    Meets (· = D) (transaction fails .reflect fun db => (db w.target).map fun _ => db)
      (fun _ db => db = D) raised :=
  meets_effect (by rw [hold]; rfl) rfl h

lemma meets_execute (fails : Statement → Bool) (hmode : w.request.mode ≠ .append) (hfresh : w.Fresh D)
    (hold : D w.target = some old) (hali : w.alignMeta = .ok alignment)
    (ha : Aligns w alignment.insertColumnNames columns f) :
    Meets (· = D) (execute w fails)
      (fun result => Written w fails alignment.insertColumnNames columns old (w.rows.map f)
        result.rowsWritten)
      (fun error db => WriteRaised w fails alignment.insertColumnNames columns old (w.rows.map f)
          error db ∨
        error = .statement .dropStaging ∧ fails .dropStaging = true) := by
  have hw := meets_withStaging hfresh hold (meets_stagedWrite fails ha hfresh hold)
  rw [execute, hali]
  refine (meets_reflect hold fun hfails => .inl (.inl ⟨hold, .inl ⟨hfails, nofun, nofun⟩⟩)).bind
    fun _ => ?_
  refine .bind (R := fun a db => a = alignment ∧ db = D)
    (meets_aligned (fun _ _ h hdb => ⟨(Except.ok.inj h).symm, hdb⟩) nofun) fun _ => Meets.assume ?_
  rintro rfl
  refine .bind (R := fun written => Written w fails _ columns old (w.rows.map f) written.1) ?_
    fun _ => .pure fun _ hdb => hdb
  rw [writeRows]
  split
  · next happ => exact absurd happ hmode
  · exact hw.bind fun _ => .pure fun _ hdb => hdb

lemma meets_execute_of_error {e : AlignError} (fails : Statement → Bool)
    (hold : D w.target = some old) (hali : w.alignMeta = .error e) :
    Meets (· = D) (execute w fails) (fun _ _ => False) (fun _ db => db = D) := by
  rw [execute, hali]
  refine (meets_reflect hold fun _ => rfl).bind fun _ => ?_
  exact .bind (R := fun _ _ => False) (meets_aligned nofun fun _ _ _ hdb => hdb) fun _ _ => False.elim

section

variable {db db' : Database V} {result : WriteResult}

def alignedRows (w : Write V) : List (Row V) :=
  match w.alignStaged w.rows with
  | .ok alignment => alignment.normalized
  | .error _ => []

def insertedColumns (w : Write V) : List String :=
  match w.alignMeta with
  | .ok alignment => alignment.insertColumnNames
  | .error _ => []

lemma Aligns.alignedRows_eq (ha : Aligns w inserted columns f)
    (h : ¬ (w.rows ≠ [] ∧ columns ≠ [] ∧ inserted = [])) :
    alignedRows w = w.rows.map f := by
  obtain ⟨alignment, hok, hn, -⟩ := ha.accepted _ h
  rw [alignedRows, hok]
  exact hn

def keptRows (w : Write V) (old new : List (Row V)) : List (Row V) :=
  match w.request.mode with
  | .upsert => old.filter fun row => !new.any fun row' =>
    nullSafeEqual w.same (row w.keyColumn) (row' w.keyColumn)
  | _ => []

def Exact (w : Write V) (old : List (Row V)) (result : WriteResult) (db' : Database V) : Prop :=
  db' w.target = some (keptRows w old (alignedRows w) ++
      copiedRows w (insertedColumns w) (alignedRows w)) ∧
    result.rowsWritten = w.rows.length

lemma filter_eq_filter_iff {α : Type} {p q : α → Bool} {xs : List α} :
    xs.filter p = xs.filter q ↔ ∀ x ∈ xs, p x = q x := by
  refine ⟨fun h x hx => ?_, filter_congr⟩
  have hmem : x ∈ xs.filter p ↔ x ∈ xs.filter q := by rw [h]
  rw [mem_filter, mem_filter] at hmem
  exact Bool.eq_iff_iff.mpr ⟨fun hp => (hmem.mp ⟨hx, hp⟩).2, fun hq => (hmem.mpr ⟨hx, hq⟩).2⟩

lemma nullSafeEqual_self (w : Write V) (a : Option V) : nullSafeEqual w.same a a = true := by
  cases a with
  | none => rfl
  | some a => exact w.same_self a

lemma remaining_eq_keptRows_iff (hmode : w.request.mode ≠ .append) (new : List (Row V)) :
    remaining w old new = keptRows w old new ↔
      (w.request.mode = .truncate → w.Visible ∨ old = []) ∧
      (w.request.mode = .upsert → w.Captured → new = [] ∨ ∀ row ∈ old, ∃ row' ∈ new,
        nullSafeEqual w.same (row w.keyColumn) (row' w.keyColumn) = true) := by
  rw [remaining, keptRows]
  cases hm : w.request.mode with
  | append => exact absurd hm hmode
  | truncate =>
    by_cases hv : w.Visible
    · simp [hv]
    · simp [hv]
  | upsert =>
    simp only [filter_eq_filter_iff, reduceCtorEq, false_implies, true_and]
    by_cases hc : w.Captured
    · have hrow : ∀ source row, targetRow w source row = source := fun _ _ => if_pos hc
      have hany : (new.any fun _ => true) = !new.isEmpty := by cases new <;> rfl
      simp only [hrow, nullSafeEqual_self, hany, hc, forall_const, Bool.not_not]
      cases new with
      | nil => simp
      | cons row' new =>
        simp only [isEmpty_cons, reduceCtorEq, false_or]
        refine forall₂_congr fun row _ => ?_
        rw [eq_comm, Bool.not_eq_false', any_eq_true]
    · simp [targetRow, hc]

/-- After a write that returns, the target holds the old rows that are to be kept and the aligned
rows, exactly when the truncation reached the target, and the deletion did not read the key of the
staging table in the target's place or had to delete every row anyway. -/
theorem exact_iff (hmode : w.request.mode ≠ .append) (hfresh : w.Fresh db)
    (hold : db w.target = some old) (h : execute w fails db = .ok result db') :
    Exact w old result db' ↔
      (w.request.mode = .truncate → w.Visible ∨ old = []) ∧
      (w.request.mode = .upsert → w.Captured → alignedRows w = [] ∨
        ∀ row ∈ old, ∃ row' ∈ alignedRows w,
          nullSafeEqual w.same (row w.keyColumn) (row' w.keyColumn) = true) := by
  cases halign : w.alignMeta with
  | error e =>
    have hspec := meets_execute_of_error fails hold halign db rfl
    rw [h] at hspec
    exact hspec.elim
  | ok alignment =>
    obtain ⟨columns, f, ha⟩ := exists_aligns halign
    have hspec := meets_execute fails hmode hfresh hold halign ha db rfl
    rw [h] at hspec
    obtain ⟨hdb, -, hwritten, haccepted, -⟩ := hspec
    rw [Exact, ← remaining_eq_keptRows_iff hmode, insertedColumns, halign, ha.alignedRows_eq haccepted, hdb,
      Option.some.injEq, append_left_inj]
    exact and_iff_left hwritten

def sampleRow (n : Option ℕ) : Row ℕ := fun name => if name = "id" then n else none

def sampleTruncate : WriteRequest where
  mode := .truncate
  chunksize := some 1000
  upsert := none
  onExtraDfColumns := .error
  onMissingDfColumns := .ignoreIfDefault
  columnMapping := []
  chunksize_pos := by simp
  upsert_isSome := by simp
  nodup_sources := nodup_nil

def sampleUpsert : WriteRequest :=
  { sampleTruncate with mode := .upsert, upsert := some "id", upsert_isSome := by simp }

def sampleWrite (name : String) (ids : List (Option ℕ)) (request : WriteRequest) : Write ℕ where
  dialect := .postgresql
  fold := ⟨id, id⟩
  defaultSchema := "public"
  same a b := a == b
  same_self a := beq_self_eq_true a
  fill _ _ _ := none
  stagingName := "stg"
  emptyName := "empty"
  texts := ⟨id, id, fun _ => true, id⟩
  table := ⟨none, name, [⟨"id", false, false, false, false, true, true⟩]⟩
  ddf := ⟨[none], ["id"], [ids.map fun n => ⟨fun _ => none, sampleRow n⟩]⟩
  request := request

def sampleDatabase (name : String) (ids : List (Option ℕ)) : Database ℕ := fun key =>
  if key = ("public", name) then some (ids.map sampleRow) else none

def outcome (key : TableKey) : EStateM.Result WriteError (Database ℕ) WriteResult → Option WriteError × Option ℕ
  | .ok _ db => (none, (db key).map List.length)
  | .error error db => (some error, (db key).map List.length)

lemma fresh_sampleDatabase {name : String} (hst : name ≠ "stg") (he : name ≠ "empty")
    (new ids : List (Option ℕ)) (request : WriteRequest) :
    (sampleWrite name new request).Fresh (sampleDatabase name ids) where
  staging schema := if_neg fun h => hst (congrArg Prod.snd h).symm
  empty schema := if_neg fun h => he (congrArg Prod.snd h).symm
  staging_ne_empty := show "stg" ≠ "empty" by decide

variable {key : TableKey} {r : EStateM.Result WriteError (Database ℕ) WriteResult} {n : Option ℕ}

lemma outcome_ok (h : outcome key r = (none, n)) :
    ∃ result db, r = .ok result db ∧ (db key).map List.length = n := by
  cases r with
  | ok result db => exact ⟨result, db, rfl, congrArg Prod.snd h⟩
  | error error db => exact nomatch congrArg Prod.fst h

lemma outcome_error {error : WriteError} (h : outcome key r = (some error, n)) :
    ∃ db, r = .error error db ∧ (db key).map List.length = n := by
  cases r with
  | ok result db => exact nomatch congrArg Prod.fst h
  | error error' db =>
    obtain rfl := Option.some.inj (congrArg Prod.fst h)
    exact ⟨db, rfl, congrArg Prod.snd h⟩

theorem exact_sampleUpsert : ∃ result db',
    execute (sampleWrite "t" [some 1] sampleUpsert) (fun _ => false)
      (sampleDatabase "t" [some 1, some 2]) = .ok result db' ∧
    Exact (sampleWrite "t" [some 1] sampleUpsert) ([some 1, some 2].map sampleRow) result db' := by
  have hrun : outcome ("public", "t") (execute (sampleWrite "t" [some 1] sampleUpsert) (fun _ => false)
      (sampleDatabase "t" [some 1, some 2])) = (none, some 2) := by
    decide +kernel
  obtain ⟨result, db', hok, -⟩ := outcome_ok hrun
  have hfresh := fresh_sampleDatabase (show "t" ≠ "stg" by decide) (by decide) [some 1] [some 1, some 2]
    sampleUpsert
  refine ⟨result, db', hok, (exact_iff (by decide) hfresh rfl hok).mpr
    ⟨fun htruncate => absurd htruncate (by decide), fun _ hcaptured => ?_⟩⟩
  exact absurd hcaptured.2 (by decide)

/-- The table is called `s`, as the alias is: the row with another key is deleted too. -/
theorem not_exact_alias : ∃ result db',
    execute (sampleWrite "s" [some 1] sampleUpsert) (fun _ => false)
      (sampleDatabase "s" [some 1, some 2]) = .ok result db' ∧
    ¬ Exact (sampleWrite "s" [some 1] sampleUpsert) ([some 1, some 2].map sampleRow) result db' := by
  have hrun : outcome ("public", "s") (execute (sampleWrite "s" [some 1] sampleUpsert) (fun _ => false)
      (sampleDatabase "s" [some 1, some 2])) = (none, some 1) := by
    decide +kernel
  have hexpected :
      let w := sampleWrite "s" [some 1] sampleUpsert
      (keptRows w ([some 1, some 2].map sampleRow) (alignedRows w) ++
        copiedRows w (insertedColumns w) (alignedRows w)).length = 2 := by
    decide +kernel
  obtain ⟨result, db', hok, hlength⟩ := outcome_ok hrun
  refine ⟨result, db', hok, fun hexact => ?_⟩
  have hkey : db' ("public", "s") = _ := hexact.1
  rw [hkey, Option.map_some, hexpected] at hlength
  exact nomatch hlength

def AllOrNothing (w : Write V) (db : Database V) : Prop :=
  ∀ fails error db', execute w fails db = .error error db' → error ≠ .statement .dropStaging →
    db' w.target = db w.target

def Accepted (w : Write V) : Prop :=
  (∃ alignment, w.alignMeta = .ok alignment) ∧ ∃ alignment, w.alignStaged w.rows = .ok alignment

def Removes (w : Write V) (new : List (Row V)) (row : Row V) : Prop :=
  w.request.mode = .upsert → ∃ row' ∈ new, nullSafeEqual w.same
    (targetRow w row' row w.keyColumn) (row' w.keyColumn) = true

lemma remaining_of_ne_upsert (hmode : w.request.mode ≠ .upsert) (new : List (Row V)) :
    remaining w old new = if w.Visible then [] else old := by
  rw [remaining]
  split
  · next hu => exact absurd hu hmode
  · rfl

lemma remaining_eq_self_iff (hv : w.Visible) (new : List (Row V)) :
    remaining w old new = old ↔ ∀ row ∈ old, ¬ Removes w new row := by
  by_cases hmode : w.request.mode = .upsert
  · simp [remaining, Removes, hmode]
  · rw [remaining_of_ne_upsert hmode, if_pos hv, eq_comm, eq_nil_iff_forall_not_mem]
    exact ⟨fun h row hrow => absurd hrow (h row), fun h row hrow => h row hrow fun hm => absurd hm hmode⟩

lemma Aligns.partition_ok (ha : Aligns w inserted columns f)
    (h : ¬ (w.rows ≠ [] ∧ columns ≠ [] ∧ inserted = [])) {rows : List (FrameRow V)}
    (hrows : rows ∈ w.ddf.partitions) {error : AlignError} : w.alignStaged rows ≠ .error error := by
  intro herror
  have hnot : ¬ (rows ≠ [] ∧ columns ≠ [] ∧ inserted = []) := fun href =>
    h ⟨fun hf => href.1 (flatten_eq_nil_iff.mp hf rows hrows), href.2⟩
  obtain ⟨alignment, hok, -⟩ := ha.accepted rows hnot
  exact nomatch hok.symm.trans herror

def failsAtCopy (statement : Statement) : Bool := statement = .copy || statement = .copyDefaults

lemma execute_failsAtCopy (hmode : w.request.mode ≠ .append) (hfresh : w.Fresh db)
    (hold : db w.target = some old) (hacc : Accepted w) (hv : w.Visible)
    (hcopy : insertedColumns w ≠ [] ∨ w.rows ≠ []) :
    ∃ error db', execute w failsAtCopy db = .error error db' ∧ error ≠ .statement .dropStaging ∧
      db' w.target = some (remaining w old (alignedRows w)) := by
  obtain ⟨⟨alignment, hali⟩, whole, hw⟩ := hacc
  obtain ⟨columns, f, ha⟩ := exists_aligns hali
  have hnot := mt (ha.refused w.rows) fun ⟨_, herror⟩ => nomatch hw.symm.trans herror
  have hspec := meets_execute failsAtCopy hmode hfresh hold hali ha db rfl
  rw [insertedColumns, hali] at hcopy
  rw [ha.alignedRows_eq hnot]
  cases hrun : execute w failsAtCopy db with
  | ok result db' =>
    rw [hrun] at hspec
    have hfails := hspec.2.1 (hcopy.imp_right (mt map_eq_nil_iff.mp))
    exact nomatch hfails.symm.trans
      (show failsAtCopy (copyStatement _) = true by rw [copyStatement]; split <;> rfl)
  | error error db' =>
    rw [hrun] at hspec
    rcases hspec with (⟨-, hc | hc⟩ | ⟨hdb, herror, -⟩) | ⟨-, hd⟩
    · cases error with
      | align error =>
        obtain ⟨rows, hrows, herror⟩ := hc
        exact absurd herror (ha.partition_ok hnot hrows)
      | statement statement =>
        obtain ⟨hfails, hne, hne'⟩ := hc
        simp [failsAtCopy, hne, hne'] at hfails
    · exact absurd hv hc
    · refine ⟨error, db', rfl, ?_, hdb⟩
      rintro rfl
      have hs := WriteError.statement.inj herror
      rw [copyStatement] at hs
      split at hs <;> exact nomatch hs
    · exact nomatch hd

/-- The target is emptied before the copy, so a failing copy loses the rows that emptying removes:
every write of an accepted dataframe can, unless there is no such row or nothing is copied. -/
theorem allOrNothing_iff (hmode : w.request.mode ≠ .append) (hfresh : w.Fresh db)
    (hold : db w.target = some old) :
    AllOrNothing w db ↔ (Accepted w → w.Visible → insertedColumns w ≠ [] ∨ w.rows ≠ [] →
        ∀ row ∈ old, ¬ Removes w (alignedRows w) row) := by
  constructor
  · intro hall haccepted hvisible hcopy
    obtain ⟨error, db', hrun, hne, hdb'⟩ :=
      execute_failsAtCopy hmode hfresh hold haccepted hvisible hcopy
    rw [← remaining_eq_self_iff hvisible]
    exact Option.some.inj (hdb'.symm.trans ((hall _ error db' hrun hne).trans hold))
  · intro hcond fails error db' hrun hne
    rw [hold]
    cases halign : w.alignMeta with
    | error e =>
      have hspec := meets_execute_of_error fails hold halign db rfl
      rw [hrun] at hspec
      exact (congrFun hspec _).trans hold
    | ok alignment =>
      obtain ⟨columns, f, ha⟩ := exists_aligns halign
      have hspec := meets_execute fails hmode hfresh hold halign ha db rfl
      rw [hrun] at hspec
      rcases hspec with (⟨hdb, -⟩ | ⟨hdb, -, hcopy, hnot, hupsert⟩) | ⟨hdrop, -⟩
      · exact hdb
      · rw [hdb, Option.some.injEq]
        by_cases hvisible : w.Visible
        · obtain ⟨whole, hwhole, -⟩ := ha.accepted _ hnot
          rw [remaining_eq_self_iff hvisible, ← ha.alignedRows_eq hnot]
          refine hcond ⟨⟨_, halign⟩, whole, hwhole⟩ hvisible ?_
          rw [insertedColumns, halign]
          exact hcopy.imp_right (mt map_eq_nil_iff.mpr)
        · rw [remaining_of_ne_upsert (mt hupsert hvisible), if_neg hvisible]
      · exact absurd hdrop hne

theorem allOrNothing_sampleUpsert :
    AllOrNothing (sampleWrite "t" [some 1] sampleUpsert) (sampleDatabase "t" [some 2, some 3]) := by
  have hfresh := fresh_sampleDatabase (show "t" ≠ "stg" by decide) (by decide) [some 1] [some 2, some 3]
    sampleUpsert
  refine (allOrNothing_iff (by decide) hfresh rfl).mpr fun _ _ _ => ?_
  simp only [Removes]
  decide +kernel

/-- No statement fails but the copy, which the NULL in a column that is NOT NULL makes fail. -/
theorem not_allOrNothing_null :
    ¬ AllOrNothing (sampleWrite "t" [none] sampleTruncate) (sampleDatabase "t" [some 1]) := by
  intro hall
  have hrun : outcome ("public", "t") (execute (sampleWrite "t" [none] sampleTruncate) (fun _ => false)
      (sampleDatabase "t" [some 1])) = (some (.statement .copy), some 0) := by
    decide +kernel
  obtain ⟨db', herror, hlength⟩ := outcome_error hrun
  have hkey : db' ("public", "t") = some ([some 1].map sampleRow) := hall _ _ db' herror nofun
  rw [hkey] at hlength
  exact nomatch hlength

end

end Dvt.Writes
