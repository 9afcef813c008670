import Mathlib.Data.List.Infix

/-! Finite runs of a transition system whose labels carry all of the choices. -/

namespace Dvt.Library

open List

variable {σ α : Type} (step : σ → α → σ)

def run (s : σ) (xs : List α) : σ := xs.foldl step s

@[simp] lemma run_nil (s : σ) : run step s [] = s := rfl

@[simp] lemma run_cons (s : σ) (a : α) (xs : List α) :
    run step s (a :: xs) = run step (step s a) xs := rfl

lemma run_append (s : σ) (xs ys : List α) :
    run step s (xs ++ ys) = run step (run step s xs) ys := foldl_append

@[simp] lemma run_snoc (s : σ) (xs : List α) (a : α) :
    run step s (xs ++ [a]) = step (run step s xs) a := by
  simp [run_append]

def Along (ok : σ → α → Prop) : σ → List α → Prop
  | _, [] => True
  | s, a :: xs => ok s a ∧ Along ok (step s a) xs

instance Along.decidable (ok : σ → α → Prop) [∀ s a, Decidable (ok s a)] :
    ∀ s xs, Decidable (Along step ok s xs)
  | _, [] => isTrue trivial
  | s, a :: xs => @instDecidableAnd _ _ _ (Along.decidable ok (step s a) xs)

variable {step} {ok : σ → α → Prop} {s : σ} {xs : List α}

lemma along_append {ys : List α} :
    Along step ok s (xs ++ ys) ↔ Along step ok s xs ∧ Along step ok (run step s xs) ys := by
  induction xs generalizing s with
  | nil => simp [Along]
  | cons a xs ih => simp [Along, ih, and_assoc]

lemma along_iff : Along step ok s xs ↔ ∀ pre a, pre ++ [a] <+: xs → ok (run step s pre) a := by
  constructor
  · rintro h pre a ⟨post, rfl⟩
    rw [append_assoc, along_append] at h
    exact h.2.1
  · intro h
    induction xs generalizing s with
    | nil => trivial
    | cons a xs ih =>
      refine ⟨h [] a (by simp), ih ?_⟩
      intro pre b hp
      exact h (a :: pre) b (cons_prefix_cons.mpr ⟨rfl, hp⟩)

lemma Along.of_isPrefix {pre : List α} (h : Along step ok s xs)
    (hp : pre <+: xs) : Along step ok s pre := by
  obtain ⟨post, rfl⟩ := hp
  exact (along_append.mp h).1

lemma Along.and {ok' : σ → α → Prop} (h : Along step ok s xs)
    (h' : Along step ok' s xs) : Along step (fun s a => ok s a ∧ ok' s a) s xs := by
  induction xs generalizing s with
  | nil => trivial
  | cons a xs ih => exact ⟨⟨h.1, h'.1⟩, ih h.2 h'.2⟩

lemma Along.and_forall {q : α → Prop}
    (h : Along step ok s xs) (hq : ∀ a ∈ xs, q a) : Along step (fun s a => ok s a ∧ q a) s xs := by
  induction xs generalizing s with
  | nil => trivial
  | cons a xs ih =>
    obtain ⟨ha, hxs⟩ := forall_mem_cons.mp hq
    exact ⟨⟨h.1, ha⟩, ih h.2 hxs⟩

lemma along_true (s : σ) (xs : List α) : Along step (fun _ _ => True) s xs := by
  induction xs generalizing s with
  | nil => trivial
  | cons a xs ih => exact ⟨trivial, ih _⟩

variable {P : σ → Prop}

lemma Along.invariant
    (h : Along step ok s xs) (hs : ∀ s a, ok s a → P s → P (step s a)) (h₀ : P s) :
    P (run step s xs) := by
  induction xs generalizing s with
  | nil => exact h₀
  | cons a xs ih => exact ih h.2 (hs s a h.1 h₀)

lemma run_invariant (xs : List α) (hs : ∀ s a, P s → P (step s a)) (h₀ : P s) : P (run step s xs) :=
  (along_true s xs).invariant (fun s a _ => hs s a) h₀

lemma Along.monotone {β : Type} [Preorder β] (f : σ → β)
    (h : Along step ok s xs) (hs : ∀ s a, ok s a → P s → P (step s a))
    (hf : ∀ s a, ok s a → P s → f s ≤ f (step s a)) (h₀ : P s) : f s ≤ f (run step s xs) := by
  induction xs generalizing s with
  | nil => exact le_rfl
  | cons a xs ih => exact (hf s a h.1 h₀).trans (ih h.2 (hs s a h.1 h₀))

lemma exists_switch (xs : List α) (h₀ : ¬ P s) (h : P (run step s xs)) :
    ∃ pre a post, xs = pre ++ a :: post ∧ ¬ P (run step s pre) ∧ P (step (run step s pre) a) := by
  induction xs using List.reverseRecOn with
  | nil => exact absurd h h₀
  | append_singleton xs a ih =>
    by_cases hp : P (run step s xs)
    · obtain ⟨pre, b, post, rfl, hn, hb⟩ := ih hp
      exact ⟨pre, b, post ++ [a], by simp, hn, hb⟩
    · exact ⟨xs, a, [], rfl, hp, by simpa using h⟩

variable {π : Type}

lemma mem_modify {ps : List π} {i : ℕ} {f : π → π} {q : π} (h : q ∈ ps.modify i f) :
    q ∈ ps ∨ ∃ p, ps[i]? = some p ∧ q = f p := by
  obtain ⟨j, hj⟩ := mem_iff_getElem?.mp h
  rw [List.getElem?_modify] at hj
  obtain ⟨p, hp, rfl⟩ := Option.map_eq_some_iff.mp hj
  split
  · next he => exact .inr ⟨p, he ▸ hp, rfl⟩
  · exact .inl (mem_of_getElem? hp)

lemma moved_mem {ps : List π} {i : ℕ} {p : π} (f : π → π) (h : ps[i]? = some p) :
    f p ∈ ps.modify i f := by
  have hm : (ps.modify i f)[i]? = some (f p) := by
    rw [List.getElem?_modify, h]
    simp
  exact mem_of_getElem? hm

lemma mem_modify_of_mem {ps : List π} {q : π} (i : ℕ) (f : π → π) (h : q ∈ ps) :
    q ∈ ps.modify i f ∨ ps[i]? = some q ∧ f q ∈ ps.modify i f := by
  obtain ⟨j, hj⟩ := mem_iff_getElem?.mp h
  have hm : (ps.modify i f)[j]? = some (if i = j then f q else q) := by
    rw [List.getElem?_modify, hj]
    rfl
  have hmem := mem_of_getElem? hm
  split at hmem
  · next he => exact .inr ⟨he ▸ hj, hmem⟩
  · exact .inl hmem

lemma mem_set_of_mem {ps : List π} {q : π} (i : ℕ) (p : π) (h : q ∈ ps) :
    q ∈ ps.set i p ∨ ps[i]? = some q := by
  obtain ⟨j, hj⟩ := mem_iff_getElem?.mp h
  by_cases he : i = j
  · exact .inr (he ▸ hj)
  · refine .inl (mem_of_getElem? (i := j) ?_)
    rw [List.getElem?_set_ne he, hj]

end Dvt.Library
