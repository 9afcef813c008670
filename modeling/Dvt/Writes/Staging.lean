import Dvt.Writes.Executor

/-! What each part of a staged write does to the staging table and the target. -/

namespace Dvt.Writes

open List

open Library Library.Sql Function

variable {fails : Statement → Bool}

variable {V : Type} {w : Write V} {pre : Database V → Prop} {post : Unit → Database V → Prop}
  {raised : WriteError → Database V → Prop}

lemma meets_transaction {statement : Statement} {effect : Database V → Option (Database V)}
    (hdone : ∀ db db', pre db → fails statement = false → effect db = some db' → post () db')
    (hf : ∀ db, pre db → fails statement = true ∨ effect db = none →
      raised (.statement statement) db) :
    Meets pre (transaction fails statement effect) post raised := by
  intro db hdb
  rw [transaction]
  cases hfails : fails statement with
  | true => exact hf db hdb (.inl hfails)
  | false =>
    cases he : effect db with
    | none => exact hf db hdb (.inr he)
    | some db' => exact hdone db db' hdb hfails he

section

variable {statement : Statement} {effect : Database V → Option (Database V)} {D D' : Database V}

lemma meets_effect (he : effect D = some D') (hp : post () D')
    (hr : fails statement = true → raised (.statement statement) D) :
    Meets (· = D) (transaction fails statement effect) post raised := by
  refine meets_transaction ?_ ?_
  · rintro db db' rfl - h
    obtain rfl := Option.some.inj (he.symm.trans h)
    exact hp
  · rintro db rfl (hfails | hn)
    · exact hr hfails
    · exact nomatch he.symm.trans hn

lemma meets_refused (he : effect D = none) (hr : raised (.statement statement) D) :
    Meets (· = D) (transaction fails statement effect) post raised := by
  refine meets_transaction ?_ ?_
  · rintro db db' rfl - h
    exact nomatch h.symm.trans he
  · rintro db rfl -
    exact hr

end

lemma meets_aligned {α : Type} {x : Except AlignError α} {post : α → Database V → Prop}
    (hok : ∀ a db, x = .ok a → pre db → post a db)
    (herror : ∀ e db, x = .error e → pre db → raised (.align e) db) :
    Meets pre (aligned x) post raised := by
  cases x with
  | ok a => exact .pure fun db hdb => hok a db rfl hdb
  | error e => exact .throw fun db hdb => herror e db rfl hdb

lemma columnNames_stagingTable (w : Write V) : w.stagingTable.columnNames = w.table.columnNames := by
  rw [Table.columnNames, Write.stagingTable, map_map]
  rfl

lemma nullable_stagingTable (w : Write V) :
    ∀ column ∈ w.stagingTable.columns, column.nullable = true := by
  intro column hc
  obtain ⟨_, -, rfl⟩ := mem_map.mp hc
  rfl

def Write.alignStaged (w : Write V) (rows : List (FrameRow V)) :
    Except AlignError (ColumnAlignment V) :=
  alignPartitionToTable w.texts ⟨w.ddf.index, w.ddf.columns, rows⟩ w.stagingTable w.request true

/-- The frame is refused where it has rows and columns, none of which is inserted. -/
structure Aligns (w : Write V) (inserted columns : List String) (f : FrameRow V → Row V) : Prop where
  row_eq_none : ∀ row name, inserted.contains name = false → f row name = none
  refused : ∀ rows, rows ≠ [] ∧ columns ≠ [] ∧ inserted = [] → ∃ error, w.alignStaged rows = .error error
  accepted : ∀ rows, ¬ (rows ≠ [] ∧ columns ≠ [] ∧ inserted = []) → ∃ alignment,
    w.alignStaged rows = .ok alignment ∧ alignment.normalized = rows.map f ∧
      alignment.insertColumnNames = inserted ∧ alignment.rowCount = rows.length ∧
      alignment.defaultOnlyInsert = (!rows.isEmpty && inserted.isEmpty)

lemma exists_aligns {alignment : ColumnAlignment V} (h : w.alignMeta = .ok alignment) :
    ∃ columns f, Aligns w alignment.insertColumnNames columns f := by
  obtain ⟨columns, f, hw⟩ := exists_working (t := w.texts) (V := V) w.ddf.index w.ddf.columns
  rw [Write.alignMeta, DataFrame.meta, alignPartitionToTable, hw] at h
  obtain ⟨plan, hplan, h⟩ := bind_eq_ok.mp h
  obtain ⟨_, -, h⟩ := bind_eq_ok.mp h
  obtain ⟨_, -, h⟩ := bind_eq_ok.mp h
  obtain rfl := Except.ok.inj h
  have hs := alignColumns_of_canOmit (columnNames_stagingTable w)
    (fun column hc => by simp [canOmitTableColumn, nullable_stagingTable w column hc]) hplan
  have hali := fun rows => alignPartition_of_nullable hw (nullable_stagingTable w) hs rows true
  refine ⟨columns, fun row => normalizedRow columns plan (f row), ?_, ?_, ?_⟩
  · intro row name hname
    rw [normalizedRow, hname]
    rfl
  · intro rows hrows
    exact ⟨_, (hali rows).trans (if_pos hrows)⟩
  · intro rows hrows
    exact ⟨_, (hali rows).trans (if_neg hrows), rfl, rfl, rfl, rfl⟩

section

variable {inserted columns : List String} {f : FrameRow V → Row V} {D : Database V}

def StageCause (w : Write V) (fails : Statement → Bool) : WriteError → Prop
  | .statement statement => fails statement = true ∧ statement ≠ .copy ∧ statement ≠ .copyDefaults
  | .align error => ∃ rows ∈ w.ddf.partitions, w.alignStaged rows = .error error

def StageRaised (w : Write V) (fails : Statement → Bool) (D : Database V) (error : WriteError)
    (db : Database V) : Prop :=
  (∃ staged, db = update D w.staging (some staged)) ∧ StageCause w fails error

lemma insertInto_staging (w : Write V) (D : Database V) (key : TableKey)
    {rows : List (Row V)} (staged : List (Row V))
    (hrows : ∀ row ∈ rows, ∀ name, inserted.contains name = false → row name = none) :
    insertInto key w.stagingTable inserted (fun _ _ => none) rows
      (update D key (some staged)) = some (update D key (some (staged ++ rows))) := by
  have hnew : (rows.mapIdx fun _ row => stored w.stagingTable inserted (fun _ => none) row) = rows := by
    rw [mapIdx_eq_iff]
    intro i
    cases hi : rows[i]? with
    | none => rfl
    | some row =>
      rw [Option.map_some, Option.some.injEq]
      funext name
      have hrow := hrows row (mem_of_getElem? hi) name
      rw [stored]
      cases hname : inserted.contains name with
      | true => rfl
      | false => simp [hrow hname]
  have hv : rows.any (violates w.stagingTable) = false := by
    rw [any_eq_false]
    intro row _
    simp only [violates, any_eq_true, not_exists, not_and]
    intro column hc
    simp [nullable_stagingTable w column hc]
  rw [insertInto, update_self]
  simp only [hnew, Option.bind_eq_bind, Option.bind_some, hv, update_idem]
  rfl

lemma meets_insertChunks (w : Write V) (number : ℕ) {key : TableKey}
    {raised : WriteError → Database V → Prop}
    (hr : ∀ staged statement, fails statement = true ∧ statement ≠ .copy ∧ statement ≠ .copyDefaults →
      raised (.statement statement) (update D key (some staged)))
    (chunks : List (List (Row V)))
    (hrows : ∀ row ∈ chunks.flatten, ∀ name, inserted.contains name = false → row name = none)
    (staged : List (Row V)) :
    Meets (· = update D key (some staged))
      (insertChunks fails number key w.stagingTable inserted (fun _ _ _ => none) chunks)
      (fun _ db => db = update D key (some (staged ++ chunks.flatten))) raised := by
  rw [insertChunks]
  generalize 0 = first
  induction chunks generalizing staged first with
  | nil => exact .pure fun db hdb => by simpa using hdb
  | cons chunk chunks ih =>
    have hi := insertInto_staging w D key staged fun row hrow => hrows row (mem_append_left _ hrow)
    refine .bind (R := fun _ db => db = update D key (some (staged ++ chunk))) ?_ fun _ => ?_
    · exact meets_effect hi rfl fun hfails => hr staged _ ⟨hfails, nofun, nofun⟩
    · rw [flatten_cons, ← append_assoc]
      exact ih (fun row hrow => hrows row (mem_append_right _ hrow)) (staged ++ chunk) (first + 1)

variable (ha : Aligns w inserted columns f)

include ha

lemma meets_insertPartition {rows : List (FrameRow V)} (hrows : rows ∈ w.ddf.partitions) (number : ℕ)
    (staged : List (Row V)) : Meets (· = update D w.staging (some staged))
      (insertPartition w fails w.staging w.stagingTable (fun _ _ _ => none) number
        ⟨w.ddf.index, w.ddf.columns, rows⟩)
      (fun written db => (written = rows.length ∧ ¬ (rows ≠ [] ∧ columns ≠ [] ∧ inserted = [])) ∧
        db = update D w.staging (some (staged ++ rows.map f)))
      (StageRaised w fails D) := by
  have hnone : ∀ row ∈ rows.map f, ∀ name, inserted.contains name = false → row name = none := by
    intro row hrow
    obtain ⟨row, -, rfl⟩ := mem_map.mp hrow
    exact ha.row_eq_none row
  refine .bind (R := fun alignment db => w.alignStaged rows = .ok alignment ∧
    db = update D w.staging (some staged)) ?_ fun alignment => ?_
  · refine meets_aligned (fun _ _ hok hdb => ⟨hok, hdb⟩) fun error db herror hdb => ?_
    exact ⟨⟨staged, hdb⟩, rows, hrows, herror⟩
  · refine Meets.assume fun hok => ?_
    by_cases href : rows ≠ [] ∧ columns ≠ [] ∧ inserted = []
    · obtain ⟨error, herror⟩ := ha.refused rows href
      exact nomatch hok.symm.trans herror
    obtain ⟨alignment', hok', hn, hi, hcou, hd⟩ := ha.accepted rows href
    obtain rfl := Except.ok.inj (hok'.symm.trans hok)
    rw [hn, hi, hcou, hd]
    refine .ite (fun hz => ?_) fun hpos => .ite (fun hd => ?_) fun _ => ?_
    · obtain rfl := length_eq_zero_iff.mp hz
      exact .pure fun db hdb => ⟨⟨rfl, href⟩, by simpa using hdb⟩
    · have he : inserted = [] := by
        rw [Bool.and_eq_true] at hd
        exact isEmpty_iff.mp hd.2
      subst he
      have hins := insertInto_staging w D w.staging staged hnone
      refine .bind (R := fun _ db => db = update D w.staging (some (staged ++ rows.map f))) ?_
        fun _ => .pure fun db hdb => ⟨⟨rfl, href⟩, hdb⟩
      exact meets_effect hins rfl fun hfails => ⟨⟨staged, rfl⟩, hfails, nofun, nofun⟩
    · have hs : 0 < w.request.chunksize.getD rows.length := by
        cases hchu : w.request.chunksize with
        | none => exact Nat.pos_of_ne_zero hpos
        | some n => exact w.request.chunksize_pos n hchu
      have hf := flatten_chunks hs (rows.map f)
      have hr : ∀ staged statement,
          fails statement = true ∧ statement ≠ .copy ∧ statement ≠ .copyDefaults →
          StageRaised w fails D (.statement statement) (update D w.staging (some staged)) :=
        fun staged _ hst => ⟨⟨staged, rfl⟩, hst⟩
      have hc := meets_insertChunks w number hr
        (chunks (w.request.chunksize.getD rows.length) (rows.map f)) (hf.symm ▸ hnone) staged
      rw [hf] at hc
      exact hc.bind fun _ => .pure fun db hdb => ⟨⟨rfl, href⟩, hdb⟩

lemma meets_processPartitions
    (partitions : List (List (FrameRow V))) (hp : ∀ rows ∈ partitions, rows ∈ w.ddf.partitions)
    (number : ℕ) (staged : List (Row V)) :
    Meets (· = update D w.staging (some staged))
      (processPartitions fails (insertPartition w fails w.staging w.stagingTable fun _ _ _ => none)
        number (partitions.map fun rows => ⟨w.ddf.index, w.ddf.columns, rows⟩))
      (fun written db => (written = partitions.flatten.length ∧
          ¬ (partitions.flatten ≠ [] ∧ columns ≠ [] ∧ inserted = [])) ∧
        db = update D w.staging (some (staged ++ partitions.flatten.map f)))
      (StageRaised w fails D) := by
  induction partitions generalizing number staged with
  | nil => exact .pure fun db hdb => ⟨⟨rfl, fun h => h.1 rfl⟩, by simpa using hdb⟩
  | cons rows partitions ih =>
    refine .bind (R := fun _ db => db = update D w.staging (some staged)) ?_ fun _ => ?_
    · exact meets_effect rfl rfl fun hfails => ⟨⟨staged, rfl⟩, hfails, nofun, nofun⟩
    refine (meets_insertPartition ha (hp rows mem_cons_self) number staged).bind
      fun written => Meets.assume fun hw => ?_
    refine (ih (fun rows hrows => hp rows (mem_cons_of_mem _ hrows)) (number + 1)
      (staged ++ rows.map f)).bind fun rest => .pure fun db hdb => ?_
    refine ⟨⟨?_, fun href => ?_⟩, ?_⟩
    · rw [hw.1, hdb.1.1, flatten_cons, length_append]
    · have hrows : rows = [] := by_contra fun h => hw.2 ⟨h, href.2⟩
      exact hdb.1.2 ⟨by simpa [hrows] using href.1, href.2⟩
    · rw [hdb.2, flatten_cons, map_append, append_assoc]

end

end Dvt.Writes
