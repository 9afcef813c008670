import Mathlib.Data.List.Basic

/-! Loops over a list whose body may leave them early or raise. -/

namespace Dvt.Library

open List

variable {σ α ε : Type}

inductive Control (ε : Type)
  | next
  | leave
  | raise (error : ε)

def Control.result {β : Type} (value : β) : Control ε → Except ε β
  | .raise error => .error error
  | _ => .ok value

def loop (body : σ → α → σ × Control ε) : List α → σ → σ × Control ε
  | [], s => (s, .next)
  | a :: rest, s =>
    match body s a with
    | (s', .next) => loop body rest s'
    | (s', .leave) => (s', .leave)
    | (s', .raise error) => (s', .raise error)

variable {body : σ → α → σ × Control ε} {xs : List α} {I : List α → σ → Prop}
  {Q : σ → Control ε → Prop}

lemma loop_rule_from {done rest : List α} {s : σ} (hxs : xs = done ++ rest) (hs : I done s)
    (hn : ∀ done a rest s s', xs = done ++ a :: rest → I done s → body s a = (s', .next) →
      I (done ++ [a]) s')
    (hl : ∀ done a rest s s' c, xs = done ++ a :: rest → I done s → body s a = (s', c) →
      c ≠ .next → Q s' c) :
    (loop body rest s).2 = .next ∧ I xs (loop body rest s).1 ∨
      (loop body rest s).2 ≠ .next ∧ Q (loop body rest s).1 (loop body rest s).2 := by
  induction rest generalizing done s with
  | nil =>
    rw [append_nil] at hxs
    exact .inl ⟨rfl, hxs ▸ hs⟩
  | cons a rest ih =>
    rw [loop]
    split
    · next s' hb =>
      exact ih (by rw [hxs, append_assoc, singleton_append]) (hn done a rest s s' hxs hs hb)
    · next s' hb =>
      have hne : (Control.leave : Control ε) ≠ .next := by simp
      exact .inr ⟨hne, hl done a rest s s' .leave hxs hs hb hne⟩
    · next s' error hb =>
      have hne : Control.raise error ≠ .next := by simp
      exact .inr ⟨hne, hl done a rest s s' (.raise error) hxs hs hb hne⟩

end Dvt.Library
