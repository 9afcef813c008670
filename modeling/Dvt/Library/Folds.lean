import Mathlib.Data.List.Basic

/-! Left folds that can fail. -/

namespace Dvt.Library

open List

variable {α β ε : Type} {f : β → α → Except ε β} {b : β} {g : α → Except ε β}

lemma bind_eq_ok {x : Except ε α} : x >>= g = .ok b ↔ ∃ a, x = .ok a ∧ g a = .ok b := by
  cases x with
  | error error => exact ⟨nofun, fun ⟨_, ha, _⟩ => nomatch ha⟩
  | ok a => exact ⟨fun h => ⟨a, rfl, h⟩, fun ⟨_, ha, h⟩ => Except.ok.inj ha ▸ h⟩

lemma map_eq_ok {g : α → β} {x : Except ε α} : x.map g = .ok b ↔ ∃ a, x = .ok a ∧ g a = b := by
  cases x <;> simp [Except.map]

variable {xs : List α} {b' : β} {x : α}

lemma foldlM_cons_ok :
    (x :: xs).foldlM f b = .ok b' ↔ ∃ c, f b x = .ok c ∧ xs.foldlM f c = .ok b' := by
  exact bind_eq_ok

lemma foldlM_ok_of_forall (h : ∀ c, ∀ x ∈ xs, ∃ c', f c x = .ok c') (b : β) :
    ∃ b', xs.foldlM f b = .ok b' := by
  induction xs generalizing b with
  | nil => exact ⟨b, rfl⟩
  | cons x xs ih =>
    obtain ⟨c, hc⟩ := h b x mem_cons_self
    obtain ⟨b', hb'⟩ := ih (fun c y hy => h c y (mem_cons_of_mem x hy)) c
    exact ⟨b', foldlM_cons_ok.mpr ⟨c, hc, hb'⟩⟩

lemma foldlM_ok_imp {g : β → α → Except ε β}
    (h : ∀ c, ∀ x ∈ xs, ∀ c', f c x = .ok c' → g c x = .ok c') (hf : xs.foldlM f b = .ok b') :
    xs.foldlM g b = .ok b' := by
  induction xs generalizing b with
  | nil => exact hf
  | cons x xs ih =>
    obtain ⟨c, hc, hf⟩ := foldlM_cons_ok.mp hf
    refine foldlM_cons_ok.mpr ⟨c, h b x mem_cons_self c hc, ih (fun c y hy => ?_) hf⟩
    exact h c y (mem_cons_of_mem x hy)

variable {ys : List β}

lemma mapM_eq_some {g : α → Option β} : xs.mapM g = some ys ↔ xs.map g = ys.map some := by
  induction xs generalizing ys with
  | nil => cases ys <;> simp
  | cons x xs ih =>
    cases hx : g x with
    | none => cases ys <;> simp [hx]
    | some y =>
      cases ys with
      | nil => simp [Option.bind_eq_some_iff]
      | cons z zs => simp [← ih, Option.bind_eq_some_iff]

lemma mapM_eq_ok : xs.mapM g = .ok ys ↔ xs.map g = ys.map .ok := by
  induction xs generalizing ys with
  | nil => cases ys <;> simp [pure, Except.pure]
  | cons x xs ih =>
    rw [mapM_cons, bind_eq_ok]
    constructor
    · rintro ⟨y, hy, h⟩
      obtain ⟨zs, hzs, h⟩ := bind_eq_ok.mp h
      cases h
      rw [map_cons, map_cons, hy, ih.mp hzs]
    · intro h
      cases ys with
      | nil => cases h
      | cons y ys =>
        obtain ⟨hy, hys⟩ := cons.inj h
        exact ⟨y, hy, bind_eq_ok.mpr ⟨ys, ih.mpr hys, rfl⟩⟩

end Dvt.Library
