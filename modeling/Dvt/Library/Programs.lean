import Mathlib.Data.List.Basic

/-! Pre- and postconditions for programs that keep their state when they raise. -/

namespace Dvt.Library

variable {σ ε α β : Type}

def Ends (post : α → σ → Prop) (raised : ε → σ → Prop) : EStateM.Result ε σ α → Prop
  | .ok a s => post a s
  | .error e s => raised e s

def endState : EStateM.Result ε σ α → σ
  | .ok _ s => s
  | .error _ s => s

/-- From a state with `pre` the program ends with `post`, or raises with `raised`. -/
def Meets (pre : σ → Prop) (m : EStateM ε σ α) (post : α → σ → Prop) (raised : ε → σ → Prop) :
    Prop :=
  ∀ s, pre s → Ends post raised (m s)

namespace Meets

variable {pre pre' : σ → Prop} {post post' : α → σ → Prop} {raised raised' : ε → σ → Prop}
  {m : EStateM ε σ α}

lemma conseq (h : Meets pre m post raised) (hpre : ∀ s, pre' s → pre s)
    (hp : ∀ a s, post a s → post' a s) (hr : ∀ e s, raised e s → raised' e s) :
    Meets pre' m post' raised' := by
  intro s hs
  have hm := h s (hpre s hs)
  cases hrun : m s with
  | ok a s' =>
    rw [hrun] at hm
    exact hp a s' hm
  | error e s' =>
    rw [hrun] at hm
    exact hr e s' hm

lemma strengthen (h : Meets pre m post raised) (hpre : ∀ s, pre' s → pre s) :
    Meets pre' m post raised := h.conseq hpre (fun _ _ h => h) fun _ _ h => h

lemma weaken (h : Meets pre m post raised) (hp : ∀ a s, post a s → post' a s) :
    Meets pre m post' raised := h.conseq (fun _ h => h) hp fun _ _ h => h

lemma mono_raised (h : Meets pre m post raised) (hr : ∀ e s, raised e s → raised' e s) :
    Meets pre m post raised' := h.conseq (fun _ h => h) (fun _ _ h => h) hr

lemma assume {c : Prop} (h : c → Meets pre m post raised) : Meets (fun s => c ∧ pre s) m post raised :=
  fun s hs => h hs.1 s hs.2

lemma exists_pre {γ : Type} {P : γ → σ → Prop} (h : ∀ x, Meets (P x) m post raised) :
    Meets (fun s => ∃ x, P x s) m post raised := by
  rintro s ⟨x, hx⟩
  exact h x s hx

lemma endState {Q : σ → Prop} (h : Meets pre m (fun _ => Q) fun _ => Q) {s : σ} (hs : pre s) :
    Q (Library.endState (m s)) := by
  have hm := h s hs
  cases hrun : m s with
  | ok a s' | error e s' =>
    rw [hrun] at hm
    exact hm

lemma pure {a : α} (h : ∀ s, pre s → post a s) :
    Meets pre (Pure.pure a : EStateM ε σ α) post raised := fun s hs => h s hs

lemma throw {e : ε} (h : ∀ s, pre s → raised e s) :
    Meets pre (MonadExceptOf.throw e : EStateM ε σ α) post raised := fun s hs => h s hs

lemma get {post : σ → σ → Prop} (h : ∀ s, pre s → post s s) :
    Meets pre (MonadState.get : EStateM ε σ σ) post raised := fun s hs => h s hs

lemma modify {post : Unit → σ → Prop} {f : σ → σ} (h : ∀ s, pre s → post () (f s)) :
    Meets pre (modify f : EStateM ε σ PUnit) post raised := fun s hs => h s hs

lemma bind {f : α → EStateM ε σ β} {R : α → σ → Prop} {post : β → σ → Prop}
    (h : Meets pre m R raised) (hf : ∀ a, Meets (R a) (f a) post raised) :
    Meets pre (m >>= f) post raised := by
  intro s hs
  have hm := h s hs
  change Ends post raised (EStateM.bind m f s)
  rw [EStateM.bind]
  cases hrun : m s with
  | ok a s' =>
    rw [hrun] at hm
    exact hf a s' hm
  | error e s' =>
    rw [hrun] at hm
    exact hm

lemma get_bind {f : σ → EStateM ε σ β} {post : β → σ → Prop}
    (h : ∀ t, Meets (fun s => s = t ∧ pre s) (f t) post raised) :
    Meets pre (MonadState.get >>= f) post raised :=
  Meets.bind (R := fun t s => s = t ∧ pre s) (Meets.get fun _ hs => ⟨rfl, hs⟩) h

lemma tryCatch {handler : ε → EStateM ε σ α} {E : ε → σ → Prop} (h : Meets pre m post E)
    (hh : ∀ e, Meets (E e) (handler e) post raised) :
    Meets pre (tryCatch m handler) post raised := by
  intro s hs
  have hm := h s hs
  change Ends post raised (EStateM.tryCatch m handler s)
  rw [EStateM.tryCatch]
  cases hrun : m s with
  | ok a s' =>
    rw [hrun] at hm
    exact hm
  | error e s' =>
    rw [hrun] at hm
    exact hh e s' hm

lemma ite {c : Prop} [Decidable c] {m' : EStateM ε σ α} (h : c → Meets pre m post raised)
    (h' : ¬ c → Meets pre m' post raised) : Meets pre (if c then m else m') post raised := by
  split
  · next hc => exact h hc
  · next hc => exact h' hc

lemma forM {f : β → EStateM ε σ PUnit} {xs : List β} {inv : σ → Prop}
    (h : ∀ x ∈ xs, Meets inv (f x) (fun _ => inv) raised) :
    Meets inv (xs.forM f) (fun _ => inv) raised := by
  induction xs with
  | nil => exact Meets.pure fun _ hs => hs
  | cons x xs ih =>
    exact (h x (List.mem_cons_self ..)).bind fun _ => ih fun y hy => h y (List.mem_cons_of_mem _ hy)

end Meets

end Dvt.Library
