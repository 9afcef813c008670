import Dvt.Writes.Staging

/-! What a truncation or a deletion by key leaves in the target. -/

namespace Dvt.Writes

open Library Library.Sql Function

variable {V : Type} {w : Write V} {fails : Statement → Bool} {D : Database V} {old staged : List (Row V)}

/-- The names in the statements denote the tables that the library names: the dialect writes the
schema, or it is the default one. -/
def Write.Visible (w : Write V) : Prop :=
  w.denotes (w.dialect.fullTableName w.table.name w.table.schema) = w.target

instance : Decidable w.Visible := inferInstanceAs (Decidable (w.denotes _ = w.target))

/-- The target is written without a schema and its name is the alias of the staging table. -/
def Write.Captured (w : Write V) : Prop :=
  (w.dialect.fullTableName w.table.name w.table.schema).schema = none ∧
    w.fold.quoted w.table.name = w.fold.bare "s"

instance : Decidable w.Captured :=
  inferInstanceAs (Decidable ((w.dialect.fullTableName w.table.name w.table.schema).schema = none ∧ _ = _))

def nullSafeEqual (same : V → V → Bool) : Option V → Option V → Bool
  | some a, some b => same a b
  | none, none => true
  | _, _ => false

structure Write.Fresh (w : Write V) (db : Database V) : Prop where
  staging : ∀ schema, db (schema, w.fold.quoted w.stagingName) = none
  empty : ∀ schema, db (schema, w.fold.quoted w.emptyName) = none
  staging_ne_empty : w.fold.quoted w.stagingName ≠ w.fold.quoted w.emptyName

lemma denotes_eq_key_iff (w : Write V) (name : String) :
    w.denotes (w.dialect.fullTableName name w.table.schema) = w.key w.table.schema name ↔ w.Visible := by
  rw [Write.Visible, Prod.ext_iff, Prod.ext_iff]
  exact ⟨fun h => ⟨h.1, rfl⟩, fun h => ⟨h.1, rfl⟩⟩

lemma quoted_ne {name : String} (hn : ∀ schema, D (schema, w.fold.quoted name) = none)
    (hold : D w.target = some old) : w.fold.quoted w.table.name ≠ w.fold.quoted name := by
  intro heq
  have hn := hn w.target.1
  rw [← heq] at hn
  exact nomatch hold.symm.trans hn

namespace Write.Fresh

variable (hf : w.Fresh D)

include hf

lemma target_ne_staging (hold : D w.target = some old) : w.target ≠ w.staging :=
  fun h => quoted_ne hf.staging hold (congrArg Prod.snd h)

lemma target_ne_emptyCopy (hold : D w.target = some old) : w.target ≠ w.emptyCopy :=
  fun h => quoted_ne hf.empty hold (congrArg Prod.snd h)

lemma staging_ne_emptyCopy : w.staging ≠ w.emptyCopy :=
  fun h => hf.staging_ne_empty (congrArg Prod.snd h)

end Write.Fresh

def targetRow (w : Write V) (source target : Row V) : Row V :=
  if w.Captured then source else target

def nullSafeTruth (same : V → V → Bool) (a b : Option V) : Truth :=
  (Sql.compare same a b).or (Truth.and (some a.isNone) (some b.isNone))

lemma nullSafeTruth_eq_some_true (same : V → V → Bool) (a b : Option V) :
    decide (nullSafeTruth same a b = some true) = nullSafeEqual same a b := by
  cases a with
  | none => cases b <;> rfl
  | some a =>
    cases b with
    | none => rfl
    | some b => cases h : same a b <;> simp [nullSafeTruth, nullSafeEqual, Sql.compare, h, Truth.or, Truth.and]

lemma eval_deleteSql (w : Write V) (source target : Row V) :
    w.deleteSql.condition.eval w.fold w.same (w.deleteSql.scopes w.fold source target) =
      some (nullSafeTruth w.same (targetRow w source target w.keyColumn) (source w.keyColumn)) := by
  have ht := w.deleteSql.resolve_target w.fold source target
  have hs : resolve w.fold ⟨none, w.deleteSql.correlation⟩ (w.deleteSql.scopes w.fold source target) =
      some source := by simp [resolve, DeleteExists.scopes, Exposed.answers]
  have hvalue : ∀ ref row, resolve w.fold ref (w.deleteSql.scopes w.fold source target) = some row →
      value w.fold (w.deleteSql.scopes w.fold source target) ⟨ref, w.keyColumn⟩ = some (row w.keyColumn) := by
    intro ref row hrow
    rw [value, hrow]
    rfl
  have hl := hvalue _ _ ht
  have hr := hvalue _ _ hs
  change (nullSafeEq ⟨w.deleteSql.target, w.keyColumn⟩
    ⟨⟨none, w.deleteSql.correlation⟩, w.keyColumn⟩).eval _ _ _ = _
  simp only [nullSafeEq, Condition.eval, hl, hr]
  rfl

def remaining (w : Write V) (old staged : List (Row V)) : List (Row V) :=
  match w.request.mode with
  | .upsert => old.filter fun row => !staged.any fun source =>
    nullSafeEqual w.same (targetRow w source row w.keyColumn) (source w.keyColumn)
  | _ => if w.Visible then [] else old

lemma deleteUsingStaging_of_visible (hv : w.Visible) {db : Database V}
    (hsta : db w.staging = some staged) (hold : db w.target = some old) :
    deleteUsingStaging w db = some (update db w.target
      (some (old.filter fun row => !staged.any fun source =>
        nullSafeEqual w.same (targetRow w source row w.keyColumn) (source w.keyColumn)))) := by
  have hrun := DeleteExists.run_eq (eval_deleteSql w) staged old
  simp only [nullSafeTruth_eq_some_true] at hrun
  have hs := (denotes_eq_key_iff w w.stagingName).mpr hv
  have ht := (denotes_eq_key_iff w w.table.name).mpr hv
  simp only [deleteUsingStaging]
  rw [show w.denotes w.deleteSql.source = w.staging from hs,
    show w.denotes w.deleteSql.target = w.target from ht, hsta, hold]
  simp only [Option.bind_eq_bind, Option.bind_some, hrun]
  rfl

lemma deleteUsingStaging_of_not_visible (hf : w.Fresh D) (hv : ¬ w.Visible) :
    deleteUsingStaging w (update D w.staging (some staged)) = none := by
  have hne : w.denotes w.deleteSql.source ≠ w.staging :=
    fun h => hv ((denotes_eq_key_iff w w.stagingName).mp h)
  simp only [deleteUsingStaging]
  rw [update_of_ne hne, show D (w.denotes w.deleteSql.source) = none from hf.staging _]
  rfl

variable {db : Database V}

lemma replaceTableWithCopy_of_visible (hv : w.Visible) {rows : List (Row V)}
    (hne : w.target ≠ w.emptyCopy) (hold : db w.target = some old) (he : db w.emptyCopy = some rows) :
    replaceTableWithCopy w db =
      some (update (update (update db w.target none) w.emptyCopy none) w.target (some rows)) := by
  have hs : _ = w.emptyCopy := (denotes_eq_key_iff w w.emptyName).mpr hv
  simp only [replaceTableWithCopy, hold, hs, Option.bind_eq_bind, Option.bind_some,
    update_of_ne hne.symm, he]
  rw [if_neg]
  · rfl
  · rw [show (w.emptyCopy.1, w.fold.quoted w.table.name) = w.target from rfl, update_self]
    exact nofun

lemma replaceTableWithCopy_of_not_visible (hv : ¬ w.Visible)
    (he : ∀ schema, (schema, w.fold.quoted w.emptyName) ≠ w.emptyCopy →
      db (schema, w.fold.quoted w.emptyName) = none) : replaceTableWithCopy w db = none := by
  have hne := fun h => hv ((denotes_eq_key_iff w w.emptyName).mp h)
  have hn := he _ hne
  rw [replaceTableWithCopy]
  cases hold : db w.target with
  | none => rfl
  | some old =>
    simp only [Option.bind_eq_bind, Option.bind_some, Option.bind_eq_none_iff]
    intro rows hrows
    by_cases hkey : w.denotes (w.dialect.fullTableName w.emptyName w.table.schema) = w.target
    · rw [hkey, update_self] at hrows
      exact nomatch hrows
    · rw [update_of_ne hkey] at hrows
      exact nomatch hrows.symm.trans hn

lemma createTable_eq {key : TableKey} (hn : db key = none) :
    createTable key db = some (update db key (some [])) := by
  rw [createTable, hn]
  rfl

def EmptyRaised (w : Write V) (fails : Statement → Bool) (old : List (Row V)) (error : WriteError)
    (db : Database V) : Prop :=
  db w.target = some old ∧ ∃ statement, error = .statement statement ∧
    statement ≠ .copy ∧ statement ≠ .copyDefaults ∧ (fails statement = true ∨ ¬ w.Visible)

section

variable (hf : w.Fresh D) (hold : D w.target = some old)

include hf hold

lemma meets_truncate : Meets (· = update D w.staging (some staged))
      (transaction fails .truncate (truncateSql w))
      (fun _ db => db w.staging = some staged ∧ db w.target = some (if w.Visible then [] else old))
      (EmptyRaised w fails old) := by
  have hne := hf.target_ne_staging hold
  have hold' := (update_of_ne hne (some staged) D).trans hold
  refine meets_transaction ?_ ?_
  · rintro db db' rfl - he
    obtain ⟨_, -, ⟨⟩⟩ := Option.bind_eq_some_iff.mp he
    constructor
    · rw [update_of_ne, update_self]
      exact fun h => quoted_ne hf.staging hold (congrArg Prod.snd h).symm
    · split
      · next hv =>
        rw [hv, update_self]
      · next hv => rw [update_of_ne fun h => hv h.symm, hold']
  · rintro db rfl hc
    refine ⟨hold', .truncate, rfl, nofun, nofun, hc.imp_right fun hn hv => ?_⟩
    rw [Write.Visible] at hv
    simp only [truncateSql, hv, hold'] at hn
    cases hn

lemma meets_swap : Meets (· = update (update D w.staging (some staged)) w.emptyCopy (some []))
      (transaction fails .swap (replaceTableWithCopy w))
      (fun _ db => db w.staging = some staged ∧ db w.target = some [] ∧ w.Visible)
      (EmptyRaised w fails old) := by
  have hs := hf.target_ne_staging hold
  have he := hf.target_ne_emptyCopy hold
  have ht := hf.staging_ne_emptyCopy
  have hold' : update (update D w.staging (some staged)) w.emptyCopy (some []) w.target = some old := by
    rw [update_of_ne he, update_of_ne hs, hold]
  by_cases hv : w.Visible
  · refine meets_effect (replaceTableWithCopy_of_visible hv he hold'
      (update_self ..)) ⟨?_, update_self .., hv⟩ fun hfails =>
        ⟨hold', .swap, rfl, nofun, nofun, .inl hfails⟩
    rw [update_of_ne hs.symm, update_of_ne ht, update_of_ne hs.symm, update_of_ne ht, update_self]
  · refine meets_refused (replaceTableWithCopy_of_not_visible hv fun schema hsch => ?_)
      ⟨hold', .swap, rfl, nofun, nofun, .inr hv⟩
    rw [update_of_ne hsch, update_of_ne, hf.empty]
    exact fun h => hf.staging_ne_empty (congrArg Prod.snd h).symm

lemma meets_truncateOrReplaceTable :
    Meets (· = update D w.staging (some staged)) (truncateOrReplaceTable w fails)
      (fun _ db => db w.staging = some staged ∧ db w.target = some (if w.Visible then [] else old))
      (EmptyRaised w fails old) := by
  have hs := hf.target_ne_staging hold
  have hemp := hf.target_ne_emptyCopy hold
  have ht := hf.staging_ne_emptyCopy
  refine .ite (fun _ => meets_truncate hf hold) fun _ => ?_
  refine .bind (R := fun _ db => db = update (update D w.staging (some staged)) w.emptyCopy (some []))
    ?_ fun _ => ?_
  · have hn : update D w.staging (some staged) w.emptyCopy = none := by
      rw [update_of_ne ht.symm]
      exact hf.empty _
    exact meets_effect (createTable_eq hn) rfl fun hfails =>
      ⟨(update_of_ne hs ..).trans hold, .createEmpty, rfl, nofun, nofun, .inl hfails⟩
  · refine ((meets_swap hf hold).weaken fun _ db hdb => ?_).tryCatch fun error => ?_
    · rw [if_pos hdb.2.2]
      exact ⟨hdb.1, hdb.2.1⟩
    · -- the copy is dropped if possible, and the target is not touched
      refine .bind (R := fun _ => EmptyRaised w fails old error) ?_ fun _ => .throw fun _ hdb => hdb
      refine .tryCatch (E := fun _ => EmptyRaised w fails old error) ?_ fun _ => .pure fun _ hdb => hdb
      refine meets_transaction (fun db db' hdb _ he => ?_) fun _ hdb _ => hdb
      obtain rfl := Option.some.inj he
      exact ⟨(update_of_ne hemp ..).trans hdb.1, hdb.2⟩

lemma meets_emptyTarget : Meets (· = update D w.staging (some staged)) (emptyTarget w fails)
      (fun _ db => db w.staging = some staged ∧ db w.target = some (remaining w old staged) ∧
        (w.request.mode = .upsert → w.Visible))
      (EmptyRaised w fails old) := by
  have hs := hf.target_ne_staging hold
  have hold' := (update_of_ne hs (some staged) D).trans hold
  rw [emptyTarget]
  simp only [remaining]
  cases w.request.mode with
  | append | truncate =>
    exact (meets_truncateOrReplaceTable hf hold).weaken fun _ _ hdb => ⟨hdb.1, hdb.2, by simp⟩
  | upsert =>
    by_cases hv : w.Visible
    · refine meets_effect (deleteUsingStaging_of_visible hv (update_self ..) hold')
        ⟨?_, update_self .., fun _ => hv⟩ fun hfails =>
          ⟨hold', .delete, rfl, by simp, by simp, .inl hfails⟩
      rw [update_of_ne hs.symm, update_self]
    · exact meets_refused (deleteUsingStaging_of_not_visible hf hv)
        ⟨hold', .delete, rfl, by simp, by simp, .inr hv⟩

end

end Dvt.Writes
