import Mathlib.Data.List.Nodup
import Mathlib.Logic.Relation

/-! Worklist search of a finite graph. -/

namespace Dvt.Library

open List

open Relation

section

variable {α : Type} [DecidableEq α] (inside : α → Bool) (next : α → List α)

def search : ℕ → List α → List α → List α
  | 0, _, visited => visited
  | _ + 1, [], visited => visited
  | fuel + 1, x :: queue, visited =>
    if x ∈ visited ∨ inside x = false then search fuel queue visited
    else search fuel (queue ++ (next x).filter (· ∉ x :: visited)) (x :: visited)

def pending (nodes queue visited : List α) : ℕ :=
  queue.length + ((nodes.filter (· ∉ visited)).flatMap next).length

def Edge (x y : α) : Prop := y ∈ next x ∧ inside y = true

def Explored (visited queue : List α) : Prop :=
  ∀ x ∈ visited, ∀ y, Edge inside next x y → y ∈ visited ∨ y ∈ queue

variable {inside next} {fuel : ℕ} {queue visited : List α}

lemma search_visited : visited ⊆ search inside next fuel queue visited := by
  induction fuel generalizing queue visited with
  | zero => exact List.Subset.refl _
  | succ fuel ih =>
    cases queue with
    | nil => exact List.Subset.refl _
    | cons x queue =>
      rw [search]
      split
      · exact ih
      · exact List.Subset.trans (subset_cons_self x visited) ih

lemma search_sound {y : α} (h : y ∈ search inside next fuel queue visited) :
    y ∈ visited ∨ ∃ x ∈ queue, inside x = true ∧ ReflTransGen (Edge inside next) x y := by
  induction fuel generalizing queue visited with
  | zero => exact .inl h
  | succ fuel ih =>
    cases queue with
    | nil => exact .inl h
    | cons x queue =>
      rw [search] at h
      split at h
      · refine (ih h).imp_right ?_
        rintro ⟨z, hz, hzy⟩
        exact ⟨z, mem_cons_of_mem x hz, hzy⟩
      · next hx =>
        obtain ⟨_, hin⟩ := not_or.mp hx
        have hin : inside x = true := Bool.not_eq_false _ ▸ hin
        rcases ih h with hv | ⟨z, hz, hzin, hzy⟩
        · rcases mem_cons.mp hv with rfl | hv
          · exact .inr ⟨y, mem_cons_self, hin, .refl⟩
          · exact .inl hv
        · rcases mem_append.mp hz with hz | hz
          · exact .inr ⟨z, mem_cons_of_mem x hz, hzin, hzy⟩
          · refine .inr ⟨x, mem_cons_self, hin, .head ?_ hzy⟩
            exact ⟨(mem_filter.mp hz).1, hzin⟩

variable {nodes : List α} {x : α}

lemma pending_visit {queue' : List α} (hn : nodes.Nodup)
    (hx : x ∈ nodes) (hv : x ∉ visited) (hq : queue'.length ≤ queue.length + (next x).length) :
    pending next nodes queue' (x :: visited) ≤ pending next nodes queue visited := by
  have hmem : x ∈ nodes.filter (· ∉ visited) := by simp [hx, hv]
  have he : nodes.filter (· ∉ x :: visited) = (nodes.filter (· ∉ visited)).erase x := by
    rw [List.Nodup.erase_eq_filter (List.Pairwise.filter _ hn), filter_filter]
    refine filter_congr fun y _ => ?_
    by_cases hy : y = x
    · simp [hy]
    · simp [hy]
  have hsum := ((perm_cons_erase hmem).flatMap_right next).length_eq
  rw [flatMap_cons, length_append] at hsum
  simp only [pending, he]
  omega

omit [DecidableEq α] in
lemma Explored.skip
    (h : Explored inside next visited (x :: queue)) (hx : x ∈ visited ∨ inside x = false) :
    Explored inside next visited queue := by
  intro z hz y hy
  rcases h z hz y hy with hv | hq
  · exact .inl hv
  · rcases mem_cons.mp hq with rfl | hq
    · refine .inl (hx.resolve_right ?_)
      simp [hy.2]
    · exact .inr hq

lemma Explored.visit (h : Explored inside next visited (x :: queue)) :
    Explored inside next (x :: visited) (queue ++ (next x).filter (· ∉ x :: visited)) := by
  intro z hz y hy
  by_cases hyv : y ∈ x :: visited
  · exact .inl hyv
  · refine .inr (mem_append.mpr ?_)
    rcases mem_cons.mp hz with rfl | hz
    · exact .inr (mem_filter.mpr ⟨hy.1, by simpa using hyv⟩)
    · rcases h z hz y hy with hm | hm
      · exact absurd (mem_cons_of_mem x hm) hyv
      · rcases mem_cons.mp hm with rfl | hm
        · exact absurd mem_cons_self hyv
        · exact .inl hm

lemma search_closed (hn : nodes.Nodup) (hin : ∀ x, inside x = true → x ∈ nodes)
    (hf : pending next nodes queue visited ≤ fuel)
    (he : Explored inside next visited queue) :
    (∀ x ∈ queue, inside x = true → x ∈ search inside next fuel queue visited) ∧
      Explored inside next (search inside next fuel queue visited) [] := by
  induction fuel generalizing queue visited with
  | zero =>
    have hq : queue = [] := length_eq_zero_iff.mp (by simp only [pending] at hf; omega)
    subst hq
    exact ⟨fun x hx => (not_mem_nil hx).elim, he⟩
  | succ fuel ih =>
    cases queue with
    | nil => exact ⟨fun x hx => (not_mem_nil hx).elim, he⟩
    | cons x queue =>
      have hle : pending next nodes queue visited ≤ fuel := by
        simp only [pending, length_cons] at hf ⊢
        omega
      rw [search]
      split
      · next hx =>
        obtain ⟨hque, hres⟩ := ih hle (he.skip hx)
        refine ⟨fun z hz hzin => ?_, hres⟩
        rcases mem_cons.mp hz with rfl | hz
        · refine search_visited (hx.resolve_right ?_)
          simp [hzin]
        · exact hque z hz hzin
      · next hx =>
        obtain ⟨hv, hxin⟩ := not_or.mp hx
        have hxin : inside x = true := Bool.not_eq_false _ ▸ hxin
        have hlen : (queue ++ (next x).filter (· ∉ x :: visited)).length ≤
            queue.length + (next x).length := by
          rw [length_append]
          exact Nat.add_le_add_left (length_filter_le _ _) _
        have hvis := Nat.le_trans (pending_visit hn (hin x hxin) hv hlen) hle
        obtain ⟨hque, hres⟩ := ih hvis he.visit
        refine ⟨fun z hz hzin => ?_, hres⟩
        rcases mem_cons.mp hz with rfl | hz
        · exact search_visited mem_cons_self
        · exact hque z (mem_append_left _ hz) hzin

theorem mem_search_iff (hn : nodes.Nodup) (hin : ∀ x, inside x = true → x ∈ nodes)
    (hf : pending next nodes queue [] ≤ fuel) {y : α} :
    y ∈ search inside next fuel queue [] ↔
      ∃ x ∈ queue, inside x = true ∧ ReflTransGen (Edge inside next) x y := by
  constructor
  · intro h
    exact (search_sound h).resolve_left not_mem_nil
  · rintro ⟨x, hx, hxin, hxy⟩
    obtain ⟨hq, hc⟩ := search_closed hn hin hf fun x hx => (not_mem_nil hx).elim
    induction hxy with
    | refl => exact hq x hx hxin
    | tail _ hyz ih => exact (hc _ ih _ hyz).resolve_right not_mem_nil

end

end Dvt.Library
