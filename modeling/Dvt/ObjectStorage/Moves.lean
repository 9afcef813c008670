import Dvt.ObjectStorage.Gateway

/-! What a rename or a move leaves in the bucket. -/

namespace Dvt.ObjectStorage

open Library List Gateway
open Projects (Text)

variable {b : Bucket} {pre key : Text}

lemma mem_listKeys : key ∈ listKeys b pre ↔ key ∈ b.keys ∧ pre <+: key := by
  rw [listKeys, mem_insertionSort, mem_filter, isPrefixOf_iff_prefix]

lemma nodup_listKeys : (listKeys b pre).Nodup :=
  (perm_insertionSort _ _).nodup_iff.mpr (b.nodup_keys.filter _)

lemma pairwise_listKeys : (listKeys b pre).Pairwise (· ≤ ·) := pairwise_insertionSort _ _

inductive Relocation
  | rename (path newName : Text)
  | move (path targetPath : Text)

namespace Relocation

def run (g : Gateway) (b : Bucket) : Relocation → Except Failure Bucket
  | rename path newName => g.renamePath b path newName
  | move path targetPath => g.movePath b path targetPath

def paths : Relocation → Except Failure (Text × Text)
  | rename path newName => do
    let sourcePath ← relativePath path
    return (sourcePath, ← withName sourcePath newName)
  | move path targetPath => do
    let sourcePath ← relativePath path
    return (sourcePath, ← moveTo sourcePath targetPath)

lemma run_eq_ok {g : Gateway} {b b' : Bucket} {call : Relocation} (h : call.run g b = .ok b') :
    ∃ sourcePath destinationPath, call.paths = .ok (sourcePath, destinationPath) ∧
      g.moveBetweenPaths b sourcePath destinationPath = .ok b' := by
  cases call with
  | rename path newName | move path targetPath =>
    obtain ⟨sourcePath, hs, h⟩ := bind_eq_ok.mp (mapError_eq_ok.mp h)
    obtain ⟨destinationPath, hd, h⟩ := bind_eq_ok.mp h
    exact ⟨sourcePath, destinationPath,
      bind_eq_ok.mpr ⟨sourcePath, hs, bind_eq_ok.mpr ⟨destinationPath, hd, rfl⟩⟩, h⟩

end Relocation

namespace Gateway

variable (g : Gateway)

/-- The key of the source object, and where there is none the keys below the source folder. -/
def keyMoves (b : Bucket) (sourcePath destinationPath : Text) :
    Except Failure (List (Text × Text)) := do
  let sourceKey ← g.buildKey sourcePath [] false
  let destinationKey ← g.buildKey destinationPath [] false
  if ← pathExists b sourceKey then return [(sourceKey, destinationKey)]
  else do
    let sourcePrefix ← g.buildKey sourcePath [] true
    let destinationPrefix ← g.buildKey destinationPath [] true
    return (listKeys b sourcePrefix).map fun key =>
      (key, destinationPrefix ++ key.drop sourcePrefix.length)

variable {g} {b' : Bucket} {sourcePath destinationPath : Text} {moves : List (Text × Text)}

lemma isMove_moveSingleObject :
    IsMove fun (b : Bucket) (m : Text × Text) => g.moveSingleObject b m.1 m.2 := by
  intro b m b' h
  obtain ⟨copied, hc, he⟩ := bind_eq_ok.mp h
  rw [copyObject] at hc
  split at hc
  · cases hc
  · split at hc
    · cases hc
    · next content hget =>
      obtain rfl := Except.ok.inj hc
      exact ⟨content, hget, (Except.ok.inj he).symm⟩

structure Regular (b : Bucket) (moves : List (Text × Text)) : Prop where
  nodup_sources : (moves.map Prod.fst).Nodup
  nodup_destinations : (moves.map Prod.snd).Nodup
  stored : ∀ m ∈ moves, b.get? m.1 ≠ none
  sorted : moves.Pairwise fun m m' => m.1 ≤ m'.1

lemma regular_listKeys (sourcePrefix destinationPrefix : Text) :
    Regular b ((listKeys b sourcePrefix).map fun key =>
      (key, destinationPrefix ++ key.drop sourcePrefix.length)) := by
  refine ⟨?_, ?_, ?_, ?_⟩
  · rw [map_map]
    exact (map_id _).symm ▸ nodup_listKeys
  · rw [map_map]
    refine nodup_listKeys.map_on ?_
    intro k hk k' hk' he
    obtain ⟨rest, rfl⟩ := (mem_listKeys.mp hk).2
    obtain ⟨rest', rfl⟩ := (mem_listKeys.mp hk').2
    simpa using he
  · intro m hm hn
    obtain ⟨key, hkey, rfl⟩ := mem_map.mp hm
    exact Dict.get?_eq_none.mp hn (mem_listKeys.mp hkey).1
  · rw [pairwise_map]
    exact pairwise_listKeys

lemma regular_keyMoves (h : g.keyMoves b sourcePath destinationPath = .ok moves) :
    Regular b moves := by
  obtain ⟨sourceKey, -, h⟩ := bind_eq_ok.mp h
  obtain ⟨destinationKey, -, h⟩ := bind_eq_ok.mp h
  obtain ⟨found, hf, h⟩ := bind_eq_ok.mp h
  split at h
  · next hyes =>
    obtain rfl := Except.ok.inj h
    refine ⟨by simp, by simp, ?_, by simp⟩
    intro m hm hn
    rw [mem_singleton.mp hm] at hn
    rw [pathExists, hn, hyes] at hf
    split at hf <;> cases hf
  · simp only [bind_eq_ok] at h
    obtain ⟨sourcePrefix, -, destinationPrefix, -, h⟩ := h
    obtain rfl := Except.ok.inj h
    exact regular_listKeys sourcePrefix destinationPrefix

lemma keyMoves_self (h : g.keyMoves b sourcePath sourcePath = .ok moves) :
    ∀ m ∈ moves, m.2 = m.1 := by
  obtain ⟨sourceKey, hsou, h⟩ := bind_eq_ok.mp h
  obtain ⟨destinationKey, hdes, h⟩ := bind_eq_ok.mp h
  obtain rfl := Except.ok.inj (hsou.symm.trans hdes)
  obtain ⟨found, hf, h⟩ := bind_eq_ok.mp h
  split at h
  · obtain rfl := Except.ok.inj h
    simp
  · simp only [bind_eq_ok] at h
    obtain ⟨sourcePrefix, hs, destinationPrefix, hd, h⟩ := h
    obtain rfl := Except.ok.inj (hs.symm.trans hd)
    obtain rfl := Except.ok.inj h
    intro m hm
    obtain ⟨key, hkey, rfl⟩ := mem_map.mp hm
    obtain ⟨rest, rfl⟩ := (mem_listKeys.mp hkey).2
    simp

lemma moveBetweenPaths_eq_ok (hne : sourcePath ≠ destinationPath)
    (h : g.moveBetweenPaths b sourcePath destinationPath = .ok b') :
    ∃ moves, g.keyMoves b sourcePath destinationPath = .ok moves ∧
      moves.foldlM (fun b m => g.moveSingleObject b m.1 m.2) b = .ok b' := by
  rw [moveBetweenPaths, if_neg hne] at h
  simp only [bind_eq_ok] at h
  obtain ⟨sourceKey, hs, destinationKey, hd, found, hf, h⟩ := h
  have hk : ∀ moves, (if found = true then pure [(sourceKey, destinationKey)]
      else do
        let sourcePrefix ← g.buildKey sourcePath [] true
        let destinationPrefix ← g.buildKey destinationPath [] true
        return (listKeys b sourcePrefix).map fun key =>
          (key, destinationPrefix ++ key.drop sourcePrefix.length)) = Except.ok moves →
      g.keyMoves b sourcePath destinationPath = .ok moves := fun moves hm =>
    bind_eq_ok.mpr ⟨sourceKey, hs, bind_eq_ok.mpr ⟨destinationKey, hd,
      bind_eq_ok.mpr ⟨found, hf, hm⟩⟩⟩
  split at h
  · next hyes =>
    refine ⟨_, hk _ (if_pos hyes), ?_⟩
    rw [foldlM_cons, h]
    rfl
  · next hno =>
    obtain ⟨sourcePrefix, hsp, h⟩ := bind_eq_ok.mp h
    split at h
    · cases h
    · obtain ⟨destinationPrefix, hdp, h⟩ := bind_eq_ok.mp h
      refine ⟨_, hk _ ((if_neg hno).trans (bind_eq_ok.mpr ⟨sourcePrefix, hsp,
        bind_eq_ok.mpr ⟨destinationPrefix, hdp, rfl⟩⟩)), ?_⟩
      rw [movePrefix] at h
      split at h
      · cases h
      · rw [foldlM_map]
        exact h

end Gateway

namespace Relocation

variable (g : Gateway)

def LosesNoContent (call : Relocation) (b b' : Bucket) : Prop :=
  ∀ sourcePath destinationPath moves, call.paths = .ok (sourcePath, destinationPath) →
    g.keyMoves b sourcePath destinationPath = .ok moves → Moved moves b b'

def Clear (call : Relocation) (b : Bucket) : Prop :=
  ∀ sourcePath destinationPath moves, call.paths = .ok (sourcePath, destinationPath) →
    g.keyMoves b sourcePath destinationPath = .ok moves → sourcePath = destinationPath ∨
        ∀ m ∈ moves, ∀ m' ∈ moves, m.1 ≤ m'.1 → m.2 ≠ m'.1

end Relocation

lemma Gateway.Regular.clearAhead_iff {b : Bucket} {moves : List (Text × Text)} (h : Regular b moves) :
    ClearAhead moves ↔ ∀ m ∈ moves, ∀ m' ∈ moves, m.1 ≤ m'.1 → m.2 ≠ m'.1 := by
  constructor
  · rintro ⟨hs, ha⟩ m hm m' hm' hle
    by_cases he : m = m'
    · exact he ▸ hs m hm
    · let R := fun m m' : Text × Text =>
        m.1 ≤ m'.1 ∧ m.2 ≠ m'.1 ∨ m'.1 ≤ m.1 ∧ m'.2 ≠ m.1
      have : Std.Symm R := ⟨fun _ _ => Or.symm⟩
      have hp : moves.Pairwise R := (h.sorted.and ha).imp .inl
      obtain hmm | hmm := hp.forall hm hm' he
      · exact hmm.2
      · have hfst := le_antisymm hle hmm.1
        exact absurd (inj_on_of_nodup_map h.nodup_sources hm hm' hfst) he
  · intro hc
    refine ⟨fun m hm => hc m hm m hm le_rfl, ?_⟩
    exact h.sorted.imp_of_mem fun hm hm' hle => hc _ hm _ hm' hle

theorem losesNoContent_iff_clear (g : Gateway) (call : Relocation) {b b' : Bucket}
    (h : call.run g b = .ok b') : call.LosesNoContent g b b' ↔ call.Clear g b := by
  obtain ⟨s, d, hpaths, hmove⟩ := Relocation.run_eq_ok h
  refine forall₃_congr fun s' d' moves => forall₂_congr fun hs' hmoves => ?_
  obtain ⟨rfl, rfl⟩ := Prod.mk.inj (Except.ok.inj (hpaths.symm.trans hs'))
  by_cases hne : s = d
  · subst hne
    rw [moveBetweenPaths, if_pos rfl] at hmove
    obtain rfl := Except.ok.inj hmove
    have hself := keyMoves_self hmoves
    refine ⟨fun _ => .inl rfl, fun _ => ⟨fun m hm => by rw [hself m hm], ?_, fun _ _ _ => rfl⟩⟩
    exact fun m hm hnot => absurd (hself m hm ▸ mem_map_of_mem hm) hnot
  · obtain ⟨moves', hmoves', hfold⟩ := moveBetweenPaths_eq_ok hne hmove
    obtain rfl := Except.ok.inj (hmoves.symm.trans hmoves')
    have hreg := regular_keyMoves hmoves
    rw [or_iff_right hne, ← hreg.clearAhead_iff]
    exact moved_iff_clearAhead isMove_moveSingleObject hreg.nodup_sources
      hreg.nodup_destinations hreg.stored hfold

def sampleGateway : Gateway := ⟨"data".toList, false⟩

def sampleBucket : Bucket :=
  ⟨[("data/a/Z".toList, [1]), ("data/a/a/Z".toList, [2])], by decide⟩

def sampleMove (target : String) : Relocation := .move "a".toList target.toList

def moved (call : Relocation) : Bucket :=
  match call.run sampleGateway sampleBucket with
  | .ok b => b
  | .error _ => .empty

lemma clear_elsewhere : (sampleMove "b").Clear sampleGateway sampleBucket := by
  intro sourcePath destinationPath moves hpaths hmoves
  have hp : (sampleMove "b").paths = .ok ("a".toList, "b/a".toList) := by decide +kernel
  cases hp.symm.trans hpaths
  have hm : sampleGateway.keyMoves sampleBucket "a".toList "b/a".toList =
      .ok [("data/a/Z".toList, "data/b/a/Z".toList), ("data/a/a/Z".toList, "data/b/a/a/Z".toList)] := by
    decide +kernel
  cases hm.symm.trans hmoves
  right
  decide +kernel

theorem losesNoContent_elsewhere :
    (sampleMove "b").LosesNoContent sampleGateway sampleBucket (moved (sampleMove "b")) :=
  (losesNoContent_iff_clear sampleGateway (sampleMove "b") (by decide +kernel)).mpr clear_elsewhere

/-- The folder `a` is moved into itself: `a/Z` is copied over `a/a/Z` before that is copied. -/
theorem losesContent_intoItself :
    (sampleMove "a").run sampleGateway sampleBucket = .ok (moved (sampleMove "a")) ∧
      ¬ (sampleMove "a").LosesNoContent sampleGateway sampleBucket (moved (sampleMove "a")) := by
  refine ⟨by decide +kernel, fun h => ?_⟩
  have hkept := h "a".toList "a/a".toList
    [("data/a/Z".toList, "data/a/a/Z".toList), ("data/a/a/Z".toList, "data/a/a/a/Z".toList)]
    (by decide +kernel) (by decide +kernel)
  exact absurd (hkept.arrived _ mem_cons_self) (by decide +kernel)

end Dvt.ObjectStorage
