import Dvt.Library.Dict

/-! Entries that are moved from key to key, one after another. -/

namespace Dvt.Library

open List

variable {κ ν : Type} [DecidableEq κ]

structure Moved (moves : List (κ × κ)) (d d' : Dict κ ν) : Prop where
  arrived : ∀ m ∈ moves, d'.get? m.2 = d.get? m.1
  gone : ∀ m ∈ moves, m.1 ∉ moves.map Prod.snd → d'.get? m.1 = none
  other : ∀ k, k ∉ moves.map Prod.fst → k ∉ moves.map Prod.snd → d'.get? k = d.get? k

def ClearAhead (moves : List (κ × κ)) : Prop :=
  (∀ m ∈ moves, m.2 ≠ m.1) ∧ moves.Pairwise fun m m' => m.2 ≠ m'.1

instance (moves : List (κ × κ)) : Decidable (ClearAhead moves) :=
  inferInstanceAs (Decidable (_ ∧ _))

def IsMove {ε : Type} (f : Dict κ ν → κ × κ → Except ε (Dict κ ν)) : Prop :=
  ∀ d m d', f d m = .ok d' → ∃ v, d.get? m.1 = some v ∧ d' = (d.set m.2 v).erase m.1

variable {ε : Type} {f : Dict κ ν → κ × κ → Except ε (Dict κ ν)} {moves : List (κ × κ)}
  {d d' : Dict κ ν}

lemma get?_move (d : Dict κ ν) (m : κ × κ) (v : ν) (k : κ) : ((d.set m.2 v).erase m.1).get? k =
      if k = m.1 then none else if k = m.2 then some v else d.get? k := by
  rw [Dict.get?_erase, Dict.get?_set]

variable (hf : IsMove f)

include hf

lemma get?_moves_eq_none {k : κ} (h : moves.foldlM f d = .ok d')
    (hk : k ∉ moves.map Prod.snd) (hn : d.get? k = none) : d'.get? k = none := by
  induction moves generalizing d with
  | nil => exact Except.ok.inj h ▸ hn
  | cons m moves ih =>
    obtain ⟨c, hc, hr⟩ := foldlM_cons_ok.mp h
    obtain ⟨v, -, rfl⟩ := hf d m c hc
    rw [map_cons, mem_cons, not_or] at hk
    refine ih hr hk.2 ?_
    rw [get?_move, if_neg hk.1, hn, ite_self]

lemma moved_of_clearAhead (hsou : (moves.map Prod.fst).Nodup)
    (hdest : (moves.map Prod.snd).Nodup) (hcle : ClearAhead moves)
    (h : moves.foldlM f d = .ok d') : Moved moves d d' := by
  induction moves generalizing d with
  | nil =>
    obtain rfl := Except.ok.inj h
    exact ⟨by simp, by simp, fun _ _ _ => rfl⟩
  | cons m moves ih =>
    obtain ⟨c, hc, hr⟩ := foldlM_cons_ok.mp h
    obtain ⟨v, hv, rfl⟩ := hf d m c hc
    obtain ⟨hs, hsou⟩ := nodup_cons.mp hsou
    obtain ⟨hd, hdest⟩ := nodup_cons.mp hdest
    obtain ⟨hself, hself'⟩ := forall_mem_cons.mp hcle.1
    obtain ⟨ha, ha'⟩ := pairwise_cons.mp hcle.2
    have hds : m.2 ∉ moves.map Prod.fst := by
      intro hmem
      obtain ⟨m', hm', he⟩ := mem_map.mp hmem
      exact ha m' hm' he.symm
    have hmov := ih hsou hdest ⟨hself', ha'⟩ hr
    refine ⟨?_, ?_, ?_⟩
    · intro m' hm'
      obtain rfl | hm' := mem_cons.mp hm'
      · -- nothing later starts or ends at this destination
        rw [hmov.other _ hds hd, get?_move, if_neg hself, if_pos rfl, hv]
      · have hne : m'.1 ≠ m.1 := fun he => hs (he ▸ mem_map_of_mem hm')
        have hne' : m'.1 ≠ m.2 := fun he => hds (he ▸ mem_map_of_mem hm')
        rw [hmov.arrived m' hm', get?_move, if_neg hne, if_neg hne']
    · intro m' hm' hnot
      rw [map_cons, mem_cons, not_or] at hnot
      obtain rfl | hm' := mem_cons.mp hm'
      · rw [hmov.other _ hs hnot.2, get?_move, if_pos rfl]
      · exact hmov.gone m' hm' hnot.2
    · intro k hk hk'
      rw [map_cons, mem_cons, not_or] at hk hk'
      rw [hmov.other k hk.2 hk'.2, get?_move, if_neg hk.1, if_neg hk'.1]

lemma get?_eq_none_of_ahead (hdest : (moves.map Prod.snd).Nodup)
    (h : moves.foldlM f d = .ok d') (hnot : ¬ ClearAhead moves) :
    ∃ m ∈ moves, d'.get? m.2 = none := by
  induction moves generalizing d with
  | nil => exact absurd ⟨by simp, List.Pairwise.nil⟩ hnot
  | cons m moves ih =>
    obtain ⟨c, hc, hr⟩ := foldlM_cons_ok.mp h
    obtain ⟨v, -, rfl⟩ := hf d m c hc
    obtain ⟨hd, hdest⟩ := nodup_cons.mp hdest
    by_cases hcle : ClearAhead moves
    · refine ⟨m, mem_cons_self, ?_⟩
      by_cases hs : m.2 = m.1
      · refine get?_moves_eq_none hf hr hd ?_
        rw [get?_move, if_pos hs]
      · obtain ⟨m', hm', he⟩ : ∃ m' ∈ moves, m.2 = m'.1 := by
          by_contra hall
          push Not at hall
          exact hnot ⟨forall_mem_cons.mpr ⟨hs, hcle.1⟩, pairwise_cons.mpr ⟨hall, hcle.2⟩⟩
        obtain ⟨pre, post, rfl⟩ := append_of_mem hm'
        rw [foldlM_append] at hr
        obtain ⟨e, -, hp⟩ := bind_eq_ok.mp hr
        obtain ⟨e', hstep, hp⟩ := foldlM_cons_ok.mp hp
        obtain ⟨w, -, rfl⟩ := hf e m' e' hstep
        rw [map_append, map_cons, mem_append, mem_cons, not_or, not_or] at hd
        refine get?_moves_eq_none hf hp hd.2.2 ?_
        rw [get?_move, if_pos he]
    · obtain ⟨m', hm', hn⟩ := ih hdest hr hcle
      exact ⟨m', mem_cons_of_mem m hm', hn⟩

lemma moved_iff_clearAhead (hs : (moves.map Prod.fst).Nodup)
    (hd : (moves.map Prod.snd).Nodup) (hsto : ∀ m ∈ moves, d.get? m.1 ≠ none)
    (h : moves.foldlM f d = .ok d') : Moved moves d d' ↔ ClearAhead moves := by
  refine ⟨fun hmov => ?_, fun hc => moved_of_clearAhead hf hs hd hc h⟩
  by_contra hnot
  obtain ⟨m, hm, hn⟩ := get?_eq_none_of_ahead hf hd h hnot
  exact hsto m hm (hmov.arrived m hm ▸ hn)

end Dvt.Library
