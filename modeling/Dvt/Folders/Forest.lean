import Dvt.Folders.Routes
import Dvt.Library.Forest

/-! Whatever is requested, the folders form a forest of bounded depth, and a folder is changed only
by those who see it. -/

namespace Dvt.Folders

open Library Relation List Function Dict

variable {folders : FolderTable} {org folderId : String} {user : UserRecord}
  {folder : ProjectFolderRecord}

section

variable (folders : FolderTable)

def parentOf (folderId : String) : Option String :=
  (liveFolder folders folderId).bind ProjectFolderRecord.parentId

def LiveParents : Prop := ∀ folderId folder parentId, liveFolder folders folderId = some folder →
  folder.parentId = some parentId → ∃ parent, liveFolder folders parentId = some parent ∧
    parent.organizationId = folder.organizationId

structure BoundedForest : Prop where
  acyclic : ∀ folderId, ¬ TransGen (ChildOf (parentOf folders)) folderId folderId
  parents : LiveParents folders
  depth : ∀ path : List String, path.IsChain (ChildOf (parentOf folders)) →
    path.length ≤ projectFolderMaxDepth

structure WellFormed : Prop where
  parents : LiveParents folders
  bounded : Bounded (parentOf folders) projectFolderMaxDepth

def InOrganization (organizationId folderId : String) : Prop :=
  ∃ folder, liveFolder folders folderId = some folder ∧ folder.organizationId = organizationId

end

section

variable {a x : String} {i : ℕ}

lemma parentOf_eq_some : parentOf folders x = some a ↔
    ∃ folder, liveFolder folders x = some folder ∧ folder.parentId = some a :=
  Option.bind_eq_some_iff

lemma liveFolder_eq_some : liveFolder folders x = some folder ↔
    folders.get? x = some folder ∧ folder.isDeleted = false := by
  simp [liveFolder]

lemma selectParentId_eq (hx : InOrganization folders org x) :
    selectParentId folders org x = parentOf folders x := by
  obtain ⟨folder, hl, horg⟩ := hx
  simp [selectParentId, parentOf, hl, horg, Option.filter]

lemma mem_selectChildIds {parentIds : List String} : x ∈ selectChildIds folders org parentIds ↔
    InOrganization folders org x ∧ ∃ p ∈ parentIds, parentOf folders x = some p := by
  simp only [selectChildIds, mem_map, mem_filter, decide_eq_true_eq, Option.any_eq_true, Bool.not_eq_true',
    Prod.exists, exists_and_right, exists_eq_right]
  constructor
  · rintro ⟨folder, hmem, ⟨p, hp, hin⟩, horg, hdel⟩
    have hl := liveFolder_eq_some.mpr ⟨get?_eq_some.mpr hmem, hdel⟩
    exact ⟨⟨folder, hl, horg⟩, p, hin, parentOf_eq_some.mpr ⟨folder, hl, hp⟩⟩
  · rintro ⟨⟨folder, hl, horg⟩, p, hin, hp⟩
    obtain ⟨folder', hl', hp⟩ := parentOf_eq_some.mp hp
    obtain rfl := Option.some.inj (hl.symm.trans hl')
    obtain ⟨hget, hdel⟩ := liveFolder_eq_some.mp hl
    exact ⟨folder, get?_eq_some.mp hget, ⟨p, hp, hin⟩, horg, hdel⟩

lemma WellFormed.inOrganization_child (h : WellFormed folders) (hx : parentOf folders x = some a)
    (ha : InOrganization folders org a) : InOrganization folders org x := by
  obtain ⟨folder, hl, hp⟩ := parentOf_eq_some.mp hx
  obtain ⟨parent, hparent, heq⟩ := h.parents x folder a hl hp
  obtain ⟨parent', hparent', horg⟩ := ha
  obtain rfl := Option.some.inj (hparent.symm.trans hparent')
  exact ⟨folder, hl, heq.symm.trans horg⟩

lemma WellFormed.inOrganization_parent (h : WellFormed folders) (hx : parentOf folders x = some a)
    (hin : InOrganization folders org x) : InOrganization folders org a := by
  obtain ⟨folder, hl, hp⟩ := parentOf_eq_some.mp hx
  obtain ⟨folder', hl', horg⟩ := hin
  obtain rfl := Option.some.inj (hl.symm.trans hl')
  obtain ⟨parent, hparent, heq⟩ := h.parents x folder a hl hp
  exact ⟨parent, hparent, heq.trans horg⟩

lemma WellFormed.inOrganization_of_climb (h : WellFormed folders)
    (ha : InOrganization folders org a) (hx : climb (parentOf folders) i x = some a) :
    InOrganization folders org x := by
  induction i generalizing x with
  | zero =>
    obtain rfl := Option.some.inj hx
    exact ha
  | succ i ih =>
    obtain ⟨p, hp, hc⟩ := Option.bind_eq_some_iff.mp hx
    exact h.inOrganization_child hp (ih hc)

variable {levels : ℕ} {seen : List String} {d : ℕ}

lemma WellFormed.folderDepthFrom_sound (h : WellFormed folders) {depth : ℕ}
    (hx : InOrganization folders org x)
    (hd : folderDepthFrom folders org levels depth x seen = some d) :
    ∃ k, d = depth + k ∧ climb (parentOf folders) (k + 1) x = none := by
  induction levels generalizing depth x seen with
  | zero => cases hd
  | succ levels ih =>
    rw [folderDepthFrom, selectParentId_eq hx] at hd
    split at hd
    · cases hd
    · split at hd
      · next hp =>
        obtain rfl := Option.some.inj hd
        exact ⟨0, rfl, by rw [climb, hp, Option.bind_none]⟩
      · next p hp =>
        obtain ⟨k, rfl, hk⟩ := ih (h.inOrganization_parent hp hx) hd
        exact ⟨k + 1, by omega, by rw [climb, hp, Option.bind_some, hk]⟩

variable {level : List String}

lemma WellFormed.mem_nextLevel (h : WellFormed folders) (ha : InOrganization folders org a)
    (hl : ∀ x, x ∈ level ↔ climb (parentOf folders) i x = some a)
    (hs : ∀ x ∈ seen, ∃ j ≤ i, climb (parentOf folders) j x = some a) :
    x ∈ (selectChildIds folders org level).filter (· ∉ seen) ↔
      climb (parentOf folders) (i + 1) x = some a := by
  rw [mem_filter, mem_selectChildIds, decide_eq_true_eq]
  constructor
  · rintro ⟨⟨_, p, hp, hx⟩, _⟩
    rw [climb, hx]
    exact (hl p).mp hp
  · intro hx
    obtain ⟨p, hp, hc⟩ := Option.bind_eq_some_iff.mp hx
    refine ⟨⟨h.inOrganization_of_climb ha hx, p, (hl p).mpr hc, hp⟩, fun hmem => ?_⟩
    obtain ⟨j, hj, haga⟩ := hs x hmem
    have := h.bounded.climb_unique haga hx
    omega

variable {k : ℕ}

lemma exists_climb_eq {parent : String → Option String} (hx : climb parent k x = some a)
    (hik : i ≤ k) : ∃ y, climb parent i y = some a := by
  obtain ⟨j, rfl⟩ := Nat.exists_eq_add_of_le' hik
  rw [climb_add] at hx
  obtain ⟨y, _, hy⟩ := Option.bind_eq_some_iff.mp hx
  exact ⟨y, hy⟩

variable (h : WellFormed folders)

include h

variable (ha : InOrganization folders org a)

include ha

lemma WellFormed.mem_descendantFolderIdsFrom {pending descendants : List String}
    (hp : ∀ x, x ∈ pending ↔ climb (parentOf folders) i x = some a)
    (hd : ∀ x, x ∈ descendants ↔ ∃ j < i, climb (parentOf folders) (j + 1) x = some a)
    (hx : climb (parentOf folders) (k + 1) x = some a) (hk : k < i + levels) :
    x ∈ descendantFolderIdsFrom folders org levels pending descendants := by
  induction levels generalizing i pending descendants with
  | zero => exact (hd x).mpr ⟨k, hk, hx⟩
  | succ levels ih =>
    rw [descendantFolderIdsFrom]
    split
    · next hnil =>
      refine (hd x).mpr ⟨k, ?_, hx⟩
      by_contra hik
      obtain ⟨y, hy⟩ := exists_climb_eq hx (i := i) (by omega)
      rw [← hp, hnil] at hy
      cases hy
    · have hn : ∀ x, x ∈ (selectChildIds folders org pending).filter (· ∉ descendants) ↔
          climb (parentOf folders) (i + 1) x = some a := fun x =>
        h.mem_nextLevel ha hp fun y hy => by
          obtain ⟨j, hj, hy⟩ := (hd y).mp hy
          exact ⟨j + 1, hj, hy⟩
      refine ih hn (fun y => ?_) (by omega)
      rw [mem_append, hd, hn]
      constructor
      · rintro (⟨j, hj, hy⟩ | hy)
        · exact ⟨j, by omega, hy⟩
        · exact ⟨i, by omega, hy⟩
      · rintro ⟨j, hj, hy⟩
        rcases Nat.lt_succ_iff_lt_or_eq.mp hj with hlt | rfl
        · exact .inl ⟨j, hlt, hy⟩
        · exact .inr hy

lemma WellFormed.mem_getDescendantFolderIds (hx : climb (parentOf folders) (k + 1) x = some a) :
    x ∈ getDescendantFolderIds folders a org projectFolderMaxDepth := by
  have hk := h.bounded.lt_of_climb hx
  refine h.mem_descendantFolderIdsFrom (i := 0) ha (fun y => ?_) (by simp) hx (by omega)
  rw [mem_singleton, climb_zero, Option.some_inj]

lemma WellFormed.lt_folderSubtreeDepthFrom
    (hl : ∀ x, x ∈ level ↔ climb (parentOf folders) i x = some a)
    (hs : ∀ x ∈ seen, ∃ j ≤ i, climb (parentOf folders) j x = some a)
    (hx : climb (parentOf folders) k x = some a) (hk : k ≤ i + levels) :
    k < folderSubtreeDepthFrom folders org levels (i + 1) level seen := by
  induction levels generalizing i level seen with
  | zero =>
    rw [folderSubtreeDepthFrom]
    omega
  | succ levels ih =>
    have hn : ∀ y, y ∈ (selectChildIds folders org level).filter (· ∉ seen) ↔
        climb (parentOf folders) (i + 1) y = some a := fun y => h.mem_nextLevel ha hl hs
    rw [folderSubtreeDepthFrom]
    split
    · next hnil =>
      by_contra hik
      obtain ⟨y, hy⟩ := exists_climb_eq hx (i := i + 1) (by omega)
      rw [← hn, hnil] at hy
      cases hy
    · refine ih hn (fun y hy => ?_) (by omega)
      rcases mem_append.mp hy with hy | hy
      · obtain ⟨j, hj, hy⟩ := hs y hy
        exact ⟨j, by omega, hy⟩
      · exact ⟨i + 1, Nat.le_refl _, (hn y).mp hy⟩

lemma WellFormed.lt_getFolderSubtreeDepth (hx : climb (parentOf folders) k x = some a) :
    k < getFolderSubtreeDepth folders a org projectFolderMaxDepth := by
  have hk := h.bounded.lt_of_climb hx
  refine h.lt_folderSubtreeDepthFrom (i := 0) ha (fun y => ?_) (fun y hy => ?_) hx (by omega)
  · rw [mem_singleton, climb_zero, Option.some_inj]
  · obtain rfl := mem_singleton.mp hy
    exact ⟨0, Nat.le_refl 0, rfl⟩

end

variable {owner : String}

lemma getAccessibleFolder_ok (h : getAccessibleFolder folders user folderId = .ok folder) :
    liveFolder folders folderId = some folder := by
  rw [getAccessibleFolder] at h
  split at h
  · cases h
  · next hget =>
    obtain rfl := Except.ok.inj h
    exact (Option.filter_eq_some_iff.mp hget).1

lemma organizationId_of_canUse {parent : ProjectFolderRecord}
    (h : canUseParentFolderForTarget user parent owner org false = true) :
    parent.organizationId = org := by
  rw [canUseParentFolderForTarget] at h
  split at h
  · simpa using h
  · split at h
    · simp only [decide_eq_true_eq] at h
      exact h.2
    · simp only [decide_eq_true_eq] at h
      exact h.1

lemma WellFormed.validateParentFolder_ok (h : WellFormed folders) {parentId : Option String}
    {subtreeDepth : ℕ} {result : Option ProjectFolderRecord}
    (hok : validateParentFolder folders user parentId owner org subtreeDepth false = .ok result) :
    ∃ depth, depth + subtreeDepth ≤ projectFolderMaxDepth ∧ ∀ p ∈ parentId,
      InOrganization folders org p ∧ climb (parentOf folders) depth p = none := by
  rw [validateParentFolder.eq_def] at hok
  split at hok
  · split at hok
    · cases hok
    · next hd => exact ⟨0, by omega, fun p hp => by cases hp⟩
  · next parentId =>
    split at hok
    · cases hok
    · next parent hparent =>
      split at hok
      · cases hok
      · next huse =>
        split at hok
        · cases hok
        · next depth hget =>
          split at hok
          · cases hok
          · next hsum =>
            have horg := organizationId_of_canUse (by simpa using huse)
            have hin : InOrganization folders org parentId :=
              ⟨parent, getAccessibleFolder_ok hparent, horg⟩
            rw [horg] at hget
            refine ⟨depth, by omega, fun p hp => ?_⟩
            obtain rfl := Option.some.inj hp
            obtain ⟨k, rfl, hk⟩ := h.folderDepthFrom_sound hin hget
            exact ⟨hin, by rwa [Nat.add_comm]⟩

section

variable {old : ProjectFolderRecord}

lemma liveFolder_set (folders : FolderTable) (folderId : String) (folder : ProjectFolderRecord) :
    liveFolder (folders.set folderId folder) = update (liveFolder folders) folderId
      (if folder.isDeleted then none else some folder) := by
  funext x
  simp only [liveFolder, get?_set]
  by_cases hx : x = folderId
  · subst hx
    cases hdel : folder.isDeleted <;> simp [hdel]
  · simp [hx, liveFolder]

lemma parentOf_set (folders : FolderTable) (folderId : String) (folder : ProjectFolderRecord) :
    parentOf (folders.set folderId folder) = update (parentOf folders) folderId
      (if folder.isDeleted then none else folder.parentId) := by
  funext x
  simp only [parentOf, liveFolder_set]
  by_cases hx : x = folderId
  · subst hx
    cases folder.isDeleted <;> simp
  · simp [hx, parentOf]

lemma WellFormed.set (h : WellFormed folders) (hdel : folder.isDeleted = false)
    (horg : ∀ old, liveFolder folders folderId = some old →
      old.organizationId = folder.organizationId)
    (hparent : ∀ p ∈ folder.parentId, InOrganization folders folder.organizationId p)
    (hb : Bounded (update (parentOf folders) folderId folder.parentId)
      projectFolderMaxDepth) : WellFormed (folders.set folderId folder) := by
  have hl := liveFolder_set folders folderId folder
  simp only [hdel] at hl
  have hk : ∀ p parent, liveFolder folders p = some parent → ∃ parent',
      liveFolder (folders.set folderId folder) p = some parent' ∧
        parent'.organizationId = parent.organizationId := by
    intro p parent hp
    rw [hl]
    by_cases hpid : p = folderId
    · subst hpid
      exact ⟨folder, update_self .., (horg parent hp).symm⟩
    · exact ⟨parent, by rwa [update_of_ne hpid], rfl⟩
  constructor
  · intro x current p hx hp
    have hold : ∃ parent, liveFolder folders p = some parent ∧
        parent.organizationId = current.organizationId := by
      rw [hl] at hx
      by_cases hxid : x = folderId
      · subst hxid
        rw [update_self] at hx
        obtain rfl := Option.some.inj hx
        exact hparent p hp
      · rw [update_of_ne hxid] at hx
        exact h.parents x current p hx hp
    obtain ⟨parent, hparent, heq⟩ := hold
    obtain ⟨parent', hparent', heq'⟩ := hk p parent hparent
    exact ⟨parent', hparent', heq'.trans heq⟩
  · rw [parentOf_set]
    simpa [hdel] using hb

variable {folders' : FolderTable}

section

variable (h : WellFormed folders)

include h

lemma WellFormed.create {newId : String} {data : ProjectFolderCreate}
    (hok : createProjectFolder folders user newId data = .ok folders') :
    WellFormed folders' := by
  obtain ⟨name, _, hok⟩ := bind_eq_ok.mp hok
  obtain ⟨result, hv, hok⟩ := bind_eq_ok.mp hok
  split at hok
  · cases hok
  · next hfresh =>
    obtain rfl := Except.ok.inj hok
    obtain ⟨depth, hsum, hparent⟩ := h.validateParentFolder_ok hv
    have hn : liveFolder folders newId = none := by
      rw [liveFolder, get?_eq_none.mpr hfresh, Option.filter_none]
    -- nothing lies below an id that is not in the table
    have hb : ∀ b k, climb (parentOf folders) k b = some newId → k = 0 ∧ b = newId := by
      intro b k hk
      cases k with
      | zero => exact ⟨rfl, Option.some.inj hk⟩
      | succ k =>
        rw [climb_succ] at hk
        obtain ⟨x, _, hx⟩ := Option.bind_eq_some_iff.mp hk
        obtain ⟨current, hl, hp⟩ := parentOf_eq_some.mp hx
        obtain ⟨parent, hparent, _⟩ := h.parents x current newId hl hp
        rw [hn] at hparent
        cases hparent
    have hh : ∀ b k, climb (parentOf folders) k b = some newId → k < 1 := by
      intro b k hk
      have := (hb b k hk).1
      omega
    refine h.set rfl (fun old hold => ?_) (fun p hp => (hparent p hp).1) ?_
    · rw [hn] at hold
      cases hold
    · refine h.bounded.update hh (fun p hp => ⟨(hparent p hp).2, fun k hk => ?_⟩) hsum
      obtain ⟨current, hl, _⟩ := (hparent p hp).1
      rw [(hb p k hk).2, hn] at hl
      cases hl

lemma WellFormed.move {newParentId : Option String}
    {moved : ProjectFolderRecord} (hl : liveFolder folders folderId = some old)
    (hok : moveFolder folders user folderId folder newParentId = .ok moved)
    (hr : folder.organizationId = old.organizationId) (hdel : folder.isDeleted = false) :
    WellFormed (folders.set folderId moved) := by
  have hin : InOrganization folders folder.organizationId folderId := ⟨old, hl, hr.symm⟩
  rw [moveFolder] at hok
  split at hok
  · cases hok
  · next hs =>
    split at hok
    · cases hok
    · next hd =>
      obtain ⟨result, hv, hok⟩ := bind_eq_ok.mp hok
      obtain rfl := Except.ok.inj hok
      obtain ⟨depth, hsum, hparent⟩ := h.validateParentFolder_ok hv
      refine h.set hdel (fun old' hold => ?_) (fun p hp => (hparent p hp).1) ?_
      · obtain rfl := Option.some.inj (hl.symm.trans hold)
        exact hr.symm
      · refine h.bounded.update (fun b k hk => h.lt_getFolderSubtreeDepth hin hk)
          (fun p hp => ⟨(hparent p hp).2, fun k hk => ?_⟩) hsum
        obtain rfl : newParentId = some p := hp
        cases k with
        | zero => exact hs hk
        | succ k =>
          refine hd ?_
          simpa using h.mem_getDescendantFolderIds hin hk

lemma WellFormed.rename (hl : liveFolder folders folderId = some old)
    (name : String) : WellFormed (folders.set folderId { old with name }) := by
  refine h.set (liveFolder_eq_some.mp hl).2 (fun old' hold => ?_) (fun p hp => ?_) ?_
  · obtain rfl := Option.some.inj (hl.symm.trans hold)
    rfl
  · obtain ⟨parent, hparent, horg⟩ := h.parents folderId old p hl hp
    exact ⟨parent, hparent, horg⟩
  · have hs : update (parentOf folders) folderId old.parentId = parentOf folders := by
      rw [update_eq_self_iff, parentOf, hl, Option.bind_some]
    rw [hs]
    exact h.bounded

lemma WellFormed.updated {data : ProjectFolderUpdate}
    (hok : updateProjectFolder folders user folderId data = .ok folders') :
    WellFormed folders' := by
  obtain ⟨old, hold, hok⟩ := bind_eq_ok.mp hok
  obtain ⟨name, _, hok⟩ := bind_eq_ok.mp hok
  obtain ⟨moved, hm, hok⟩ := bind_eq_ok.mp hok
  obtain rfl := Except.ok.inj hok
  have hl := getAccessibleFolder_ok hold
  cases hparent : data.parentId with
  | none =>
    rw [hparent] at hm
    obtain rfl := Except.ok.inj hm
    exact h.rename hl name
  | some newParentId =>
    rw [hparent] at hm
    exact h.move hl hm rfl (liveFolder_eq_some.mp hl).2

lemma WellFormed.deleted {projectFolderIds : List String}
    (hok : deleteProjectFolder folders projectFolderIds user folderId = .ok folders') :
    WellFormed folders' := by
  obtain ⟨old, hold, hok⟩ := bind_eq_ok.mp hok
  split at hok
  · cases hok
  · next he =>
    obtain rfl := Except.ok.inj hok
    have hl := liveFolder_set folders folderId { old with isDeleted := true }
    constructor
    · intro x current p hx hp
      rw [hl] at hx
      by_cases hxid : x = folderId
      · rw [hxid, update_self] at hx
        cases hx
      · rw [update_of_ne hxid] at hx
        obtain ⟨parent, hparent, horg⟩ := h.parents x current p hx hp
        refine ⟨parent, ?_, horg⟩
        rw [hl, update_of_ne, hparent]
        rintro rfl
        obtain ⟨hget, hdel⟩ := liveFolder_eq_some.mp hx
        refine he ?_
        simp only [folderHasChildren, decide_eq_true_eq, any_eq_true]
        exact .inl ⟨current, mem_values.mpr ⟨x, hget⟩, by simp [hp, hdel]⟩
    · rw [parentOf_set]
      exact h.bounded.update (fun b k hk => h.bounded.lt_of_climb hk) (fun p hp => by cases hp)
        (Nat.le_of_eq (Nat.zero_add _))

lemma WellFormed.step (request : FolderRequest) : WellFormed (step folders request) := by
  rw [Folders.step]
  split
  · next folders' hok =>
    cases request with
    | create user newId data => exact h.create hok
    | update user folderId data => exact h.updated hok
    | delete user folderId projectFolderIds => exact h.deleted hok
  · exact h

end

lemma WellFormed.empty : WellFormed .empty where
  parents _ _ _ h := by cases h
  bounded _ := rfl

lemma WellFormed.boundedForest (h : WellFormed folders) : BoundedForest folders where
  acyclic := h.bounded.acyclic
  parents := h.parents
  depth _ := h.bounded.length_le

end

theorem boundedForest_run (requests : List FolderRequest) : BoundedForest (run step .empty requests) := by
  refine WellFormed.boundedForest ?_
  exact run_invariant requests (fun folders request h => h.step request) WellFormed.empty

def FolderRequest.actor : FolderRequest → UserRecord
  | .create user _ _ | .update user _ _ | .delete user _ _ => user

def Reaches (user : UserRecord) (folder : ProjectFolderRecord) : Prop :=
  userHasGlobalAccess user ∨ user.organizationId = folder.organizationId ∧
    (userHasAdminAccess user ∨ user.id = folder.userId)

lemma reaches_of_ok (h : getAccessibleFolder folders user folderId = .ok folder)
    {old : ProjectFolderRecord} (ho : folders.get? folderId = some old) : Reaches user old := by
  rw [(liveFolder_eq_some.mp (getAccessibleFolder_ok h)).1] at ho
  cases ho
  rw [getAccessibleFolder] at h
  split at h
  · cases h
  · next hget =>
    cases h
    have hscope := (Option.filter_eq_some_iff.mp hget).2
    grind [Reaches, getAccessScope]

lemma handle_ok {request : FolderRequest} {folders' : FolderTable}
    (h : handle folders request = .ok folders') :
    ∃ id new, folders' = folders.set id new ∧
      ∀ old, folders.get? id = some old → Reaches request.actor old := by
  cases request with
  | create user newId data =>
    obtain ⟨name, -, h⟩ := bind_eq_ok.mp h
    obtain ⟨parent, -, h⟩ := bind_eq_ok.mp h
    split_ifs at h with hn
    cases h
    exact ⟨newId, _, rfl, fun old ho => absurd (mem_keys.mpr ⟨old, ho⟩) hn⟩
  | update user id data =>
    obtain ⟨current, hc, h⟩ := bind_eq_ok.mp h
    obtain ⟨name, -, h⟩ := bind_eq_ok.mp h
    obtain ⟨moved, -, h⟩ := bind_eq_ok.mp h
    cases h
    exact ⟨id, moved, rfl, fun _ => reaches_of_ok hc⟩
  | delete user id projectFolderIds =>
    obtain ⟨current, hc, h⟩ := bind_eq_ok.mp h
    split_ifs at h
    cases h
    exact ⟨id, _, rfl, fun _ => reaches_of_ok hc⟩

theorem folder_kept {requests : List FolderRequest} (hf : folders.get? folderId = some folder)
    (hr : ∀ request ∈ requests, ¬ Reaches request.actor folder) :
    (run step folders requests).get? folderId = some folder := by
  refine ((along_true folders requests).and_forall hr).invariant
    (P := fun folders => folders.get? folderId = some folder) (fun folders request hr hf => ?_) hf
  rw [step]
  split
  · next h =>
    obtain ⟨id, new, rfl, hid⟩ := handle_ok h
    rw [get?_set, if_neg, hf]
    rintro rfl
    exact hr.2 (hid folder hf)
  · exact hf

theorem folder_kept_otherUser :
    (run step (Dict.empty.set "f" ⟨"name", none, "a", "org", false⟩)
      [.delete ⟨"b", some .user, "org"⟩ "f" []]).get? "f" = some ⟨"name", none, "a", "org", false⟩ :=
  folder_kept rfl (by simp [Reaches, FolderRequest.actor, userHasGlobalAccess, userHasAdminAccess])

end Dvt.Folders
