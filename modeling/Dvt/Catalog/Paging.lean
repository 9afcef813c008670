import Dvt.Catalog.Cursor
import Dvt.Library.Keyset
import Mathlib.Data.Char
import Mathlib.Data.List.Lex
import Mathlib.Data.List.Sort
import Mathlib.Data.Prod.Lex

/-! The pages of a catalog, followed from cursor to cursor. -/

namespace Dvt.Catalog

open Library List

/-- `matching` is what the query asks besides the cursor. -/
structure Source where
  names : List (List Char)
  matching : List Char → Bool
  lower : List Char → List Char

structure CatalogResult where
  items : List (List Char)
  nextCursor : Option (List Char)

namespace Source

variable (source : Source)

def precedes (a b : List Char) : Prop :=
  codes (source.lower a) < codes (source.lower b) ∨
    codes (source.lower a) = codes (source.lower b) ∧ codes a ≤ codes b

instance : DecidableRel source.precedes := fun _ _ => inferInstanceAs (Decidable (_ ∨ _))

def nameFilter (name : List Char) : Option (Text × Text) → Bool
  | none => true
  | some (cursorNorm, cursorExact) => cursorNorm < codes (source.lower name) ∨
    codes (source.lower name) = cursorNorm ∧ cursorExact < codes name

def pageQuery (cursor : Option (Text × Text)) : List (List Char) :=
  (source.names.filter fun name =>
    source.matching name && source.nameFilter name cursor).insertionSort source.precedes

variable (pyStr : JsonText.Value → Text) (casefold : List Char → List Char) (limit : ℕ)

def fetchPage (cursor : Option (List Char)) : Except CatalogError CatalogResult :=
  (decodeCursor pyStr cursor).map fun decoded =>
    let rows := (source.pageQuery decoded).take (limit + 1)
    let page := rows.take limit
    ⟨page, if limit < rows.length then page.getLast?.map fun last =>
      encodeCursor (casefold last) last else none⟩

def followCursor : ℕ → Option (List Char) → Option (List (List Char))
  | 0, _ => none
  | fuel + 1, cursor => match source.fetchPage pyStr casefold limit cursor with
    | .error _ => none
    | .ok ⟨items, none⟩ => some items
    | .ok ⟨items, some next⟩ => (followCursor fuel (some next)).map (items ++ ·)

def orderedNames : List (List Char) :=
  (source.names.filter source.matching).insertionSort source.precedes

def key (name : List Char) : Text ×ₗ Text := toLex (codes (source.lower name), codes name)

variable {source pyStr casefold limit}

lemma precedes_iff {a b : List Char} : source.precedes a b ↔ source.key a ≤ source.key b := by
  simp [precedes, key, Prod.Lex.toLex_le_toLex]

instance : Std.Total source.precedes where
  total a b := by simpa only [precedes_iff] using le_total (source.key a) (source.key b)

instance : IsTrans (List Char) source.precedes where
  trans a b c := by simpa only [precedes_iff] using le_trans

lemma nameFilter_some {a b : Text} {name : List Char} :
    source.nameFilter name (some (a, b)) = decide (toLex (a, b) < source.key name) := by
  simp [nameFilter, key, Prod.Lex.toLex_lt_toLex, eq_comm]

lemma key_injective : Function.Injective source.key := fun _ _ h =>
  map_injective_iff.mpr (fun _ _ hc => Char.toNat_inj.mp hc) (congrArg (·.2) h)

lemma pageQuery_eq_filter (cursor : Option (Text × Text)) :
    source.pageQuery cursor = (source.pageQuery none).filter (source.nameFilter · cursor) := by
  refine Perm.eq_of_pairwise (fun a b _ _ hab hba => ?_) (pairwise_insertionSort source.precedes _)
    ((pairwise_insertionSort source.precedes _).filter _) ?_
  · exact key_injective (le_antisymm (precedes_iff.mp hab) (precedes_iff.mp hba))
  · refine (perm_insertionSort _ _).trans (.trans ?_ ((perm_insertionSort _ _).filter _).symm)
    simp [filter_filter, nameFilter, Bool.and_comm]

lemma nodup_pageQuery (hn : source.names.Nodup) (cursor : Option (Text × Text)) :
    (source.pageQuery cursor).Nodup :=
  (perm_insertionSort _ _).nodup_iff.mpr (hn.filter _)

lemma pairwise_pageQuery (hn : source.names.Nodup) :
    (source.pageQuery none).Pairwise (source.key · < source.key ·) := by
  refine (pairwise_insertionSort source.precedes _).imp₂ (fun a b hle hne => ?_) (nodup_pageQuery hn none)
  exact (precedes_iff.mp hle).lt_of_ne (key_injective.ne hne)

lemma followCursor_eq (hl : 0 < limit) (fuel : ℕ) {cursor : Option (List Char)}
    {decoded : Option (Text × Text)} (h : decodeCursor pyStr cursor = .ok decoded) :
    source.followCursor pyStr casefold limit fuel cursor =
      followPages (fun last => source.pageQuery (some (codes (casefold last), codes last))) limit fuel
        (source.pageQuery decoded) := by
  induction fuel generalizing cursor decoded with
  | zero => rfl
  | succ fuel ih =>
    rw [followCursor, fetchPage, h, followPages, Except.map]
    by_cases hmore : (source.pageQuery decoded).length ≤ limit
    · have ht : (source.pageQuery decoded).take (limit + 1) = source.pageQuery decoded :=
        take_of_length_le (by omega)
      simp only [ht, if_neg (Nat.not_lt.mpr hmore), if_pos hmore, take_of_length_le hmore]
    · have hrows : limit < ((source.pageQuery decoded).take (limit + 1)).length := by
        rw [length_take]
        omega
      obtain ⟨last, hlast⟩ : ∃ last, ((source.pageQuery decoded).take limit).getLast? = some last :=
        ⟨_, getLast?_eq_getLast_of_ne_nil (ne_nil_of_length_pos (by rw [length_take]; omega))⟩
      have hn := decodeCursor_encodeCursor pyStr (casefold last) last
      simp only [if_pos hrows, if_neg hmore, take_take, Nat.min_eq_left (Nat.le_succ limit), hlast,
        Option.map_some, Option.bind_some, ih hn]

/-- The walk returns every matching name once and in order if and only if at each end of a page
the two case mappings of the last name cut the names at the same place. -/
theorem followed_iff (hnames : source.names.Nodup) (hlimit : 0 < limit) :
    (∃ fuel, source.followCursor pyStr casefold limit fuel none = some source.orderedNames) ↔
      ∀ j > 0, ∀ last, j * limit < source.orderedNames.length →
        source.orderedNames[j * limit - 1]? = some last →
        ∀ name ∈ source.orderedNames, source.nameFilter name (some (codes (casefold last), codes last)) =
          source.nameFilter name (some (codes (source.lower last), codes last)) := by
  have hall : source.pageQuery none = source.orderedNames := by
    simp [pageQuery, orderedNames, nameFilter]
  have hsorted := pairwise_pageQuery hnames
  have hafter : ∀ last, source.pageQuery (some (codes (casefold last), codes last)) <:+
      source.pageQuery none := by
    intro last
    rw [pageQuery_eq_filter]
    simpa only [nameFilter_some] using filter_suffix hsorted _
  have hpages := followPages_iff (nodup_pageQuery hnames none) hafter hlimit 0
  rw [Nat.zero_mul, drop_zero] at hpages
  simp only [followCursor_eq hlimit _ (rfl : decodeCursor pyStr none = _), ← hall, hpages]
  refine forall_congr' fun j => forall_congr' fun hj => forall_congr' fun last =>
    forall_congr' fun hlt => forall_congr' fun hget => ?_
  have hdrop : (source.pageQuery none).filter
      (source.nameFilter · (some (codes (source.lower last), codes last))) =
        (source.pageQuery none).drop (j * limit) := by
    have hcut := filter_eq_drop hsorted hget
    rw [Nat.sub_add_cancel (Nat.mul_pos hj hlimit)] at hcut
    simp only [nameFilter_some]
    exact hcut
  rw [pageQuery_eq_filter, ← hdrop]
  constructor
  · intro h name hname
    have hmem := congrArg (name ∈ ·) h
    simpa [mem_filter, hname, ← Bool.eq_iff_iff] using hmem
  · exact filter_congr

/-- SQLite, whose `LOWER` maps the letters of ASCII only. -/
def sqliteTables (names : List String) : Source where
  names := names.map String.toList
  matching _ := true
  lower := map Char.toLower

def foldUmlauts : List Char → List Char :=
  map fun c => if c = 'Ä' then 'ä' else if c = 'Ö' then 'ö' else c.toLower

theorem followed_asciiTables : ∃ fuel,
    (sqliteTables ["b", "A", "a"]).followCursor (fun _ => []) foldUmlauts 2 fuel none =
      some (sqliteTables ["b", "A", "a"]).orderedNames := by
  refine (followed_iff (by decide) (by decide)).mpr fun j hj last hlt hget => ?_
  have hlength : (sqliteTables ["b", "A", "a"]).orderedNames.length = 3 := by decide +kernel
  obtain rfl : j = 1 := by omega
  obtain rfl : "a".toList = last := by
    have hlast : (sqliteTables ["b", "A", "a"]).orderedNames[1 * 2 - 1]? = some "a".toList := by
      decide +kernel
    exact Option.some.inj (hlast.symm.trans hget)
  decide +kernel

theorem umlaut_table_skipped : (sqliteTables ["Ä", "Ö"]).orderedNames = ["Ä".toList, "Ö".toList] ∧
      ∀ pyStr fuel, (sqliteTables ["Ä", "Ö"]).followCursor pyStr foldUmlauts 1 fuel none ≠
        some ["Ä".toList, "Ö".toList] := by
  refine ⟨by decide +kernel, fun pyStr fuel => ?_⟩
  have hone : 0 < 1 := by decide
  rw [followCursor_eq hone fuel rfl]
  rcases fuel with _ | _ | fuel
  · decide +kernel
  · decide +kernel
  · have hwalk : followPages (fun last => (sqliteTables ["Ä", "Ö"]).pageQuery
        (some (codes (foldUmlauts last), codes last))) 1 (fuel + 2)
          ((sqliteTables ["Ä", "Ö"]).pageQuery none) = some ["Ä".toList] := rfl
    simp [hwalk]

end Source

end Dvt.Catalog
