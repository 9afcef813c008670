import Dvt.Pipelines.Project

/-! The upstream closure of a node, and what built pipelines keep of it. -/

namespace Dvt.Pipelines

open Library Relation Dict

def NodeData.Same (a b : NodeData) : Prop :=
  a.name = b.name ∧ ∀ k ∈ a.inputs.keys ++ b.inputs.keys, a.inputs.get? k = b.inputs.get? k

instance (a b : NodeData) : Decidable (a.Same b) := inferInstanceAs (Decidable (_ ∧ _))

def SameNode (p q : Pipeline) (n : String) : Prop :=
  (n ∈ p.keys ↔ n ∈ q.keys) ∧ ∀ a ∈ p.get? n, ∀ b ∈ q.get? n, a.Same b

instance (p q : Pipeline) (n : String) : Decidable (SameNode p q n) :=
  inferInstanceAs (Decidable (_ ∧ _))

def SameClosure (p q : Pipeline) (n : String) : Prop :=
  (∀ m ∈ findAllDependencies p [n], m ∈ findAllDependencies q [n]) ∧
    (∀ m ∈ findAllDependencies q [n], m ∈ findAllDependencies p [n]) ∧
    ∀ m ∈ findAllDependencies p [n], SameNode p q m

instance (p q : Pipeline) (n : String) : Decidable (SameClosure p q n) :=
  inferInstanceAs (Decidable (_ ∧ _))

variable {p q r : Pipeline} {m n k : String}

lemma NodeData.same_iff {a b : NodeData} :
    a.Same b ↔ a.name = b.name ∧ ∀ k, a.inputs.get? k = b.inputs.get? k := by
  refine and_congr_right fun _ => ⟨fun h k => ?_, fun h k _ => h k⟩
  by_cases hk : k ∈ a.inputs.keys ++ b.inputs.keys
  · exact h k hk
  · rw [List.mem_append, not_or] at hk
    rw [get?_eq_none.mpr hk.1, get?_eq_none.mpr hk.2]

lemma SameNode.symm (h : SameNode p q n) : SameNode q p n := by
  obtain ⟨hk, h⟩ := h
  refine ⟨hk.symm, fun b hb a ha => ?_⟩
  obtain ⟨hname, hin⟩ := NodeData.same_iff.mp (h a ha b hb)
  exact NodeData.same_iff.mpr ⟨hname.symm, fun k => (hin k).symm⟩

lemma SameNode.trans (h : SameNode p q n) (h' : SameNode q r n) : SameNode p r n := by
  obtain ⟨hk, h⟩ := h
  obtain ⟨hk', h'⟩ := h'
  refine ⟨hk.trans hk', fun a ha c hc => ?_⟩
  obtain ⟨b, hb⟩ := mem_keys.mp (hk.mp (mem_keys.mpr ⟨a, ha⟩))
  obtain ⟨hname, hin⟩ := NodeData.same_iff.mp (h a ha b hb)
  obtain ⟨hname', hin'⟩ := NodeData.same_iff.mp (h' b hb c hc)
  exact NodeData.same_iff.mpr ⟨hname.trans hname', fun k => (hin k).trans (hin' k)⟩

lemma mem_linkedNodeIds {inputs : Dict String NodeRuntimeInputValue} : m ∈ linkedNodeIds inputs ↔
    ∃ k v, inputs.get? k = some v ∧ ∃ l ∈ iterNodeInputLinkValues v, l.nodeId = m := by
  simp only [linkedNodeIds, List.mem_map, List.mem_flatMap, mem_values]
  constructor
  · rintro ⟨l, ⟨v, ⟨k, hk⟩, hl⟩, rfl⟩
    exact ⟨k, v, hk, l, hl, rfl⟩
  · rintro ⟨k, v, hk, l, hl, rfl⟩
    exact ⟨l, ⟨v, ⟨k, hk⟩, hl⟩, rfl⟩

lemma SameNode.upstream (h : SameNode p q n) (hm : m ∈ upstreamOf p n) : m ∈ upstreamOf q n := by
  obtain ⟨hk, h⟩ := h
  obtain ⟨a, ha, hl⟩ := mem_upstreamOf.mp hm
  obtain ⟨b, hb⟩ := mem_keys.mp (hk.mp (mem_keys.mpr ⟨a, ha⟩))
  obtain ⟨_, hin⟩ := NodeData.same_iff.mp (h a ha b hb)
  refine mem_upstreamOf.mpr ⟨b, hb, ?_⟩
  obtain ⟨i, v, hv, hl⟩ := mem_linkedNodeIds.mp hl
  exact mem_linkedNodeIds.mpr ⟨i, v, (hin i).symm.trans hv, hl⟩

lemma mem_closure : m ∈ findAllDependencies p [n] ↔ n ∈ p.keys ∧ Upstream p m n := by
  rw [mem_findAllDependencies]
  simp

lemma SameClosure.symm (h : SameClosure p q n) : SameClosure q p n := by
  obtain ⟨hpq, hqp, hs⟩ := h
  exact ⟨hqp, hpq, fun m hm => (hs m (hqp m hm)).symm⟩

lemma SameClosure.trans (h : SameClosure p q n) (h' : SameClosure q r n) : SameClosure p r n := by
  obtain ⟨hpq, hqp, hs⟩ := h
  obtain ⟨hqr, hrq, hs'⟩ := h'
  exact ⟨fun m hm => hqr m (hpq m hm), fun m hm => hqp m (hrq m hm),
    fun m hm => (hs m hm).trans (hs' m (hpq m hm))⟩

lemma SameClosure.upstream (h : SameClosure p q n) (hn : n ∈ p.keys) (hm : Upstream p m n) :
    Upstream q m n :=
  (mem_closure.mp (h.1 m (mem_closure.mpr ⟨hn, hm⟩))).2

lemma sameClosure_of_local (hn : n ∈ p.keys) (h : ∀ m, Upstream p m n → SameNode p q m ∧
    ∀ k ∈ upstreamOf p m, k ∈ q.keys → k ∈ p.keys) : SameClosure p q n := by
  have hk : ∀ m, Upstream p m n → m ∈ q.keys := fun m hm =>
    (h m hm).1.1.mp (hm.mem_left hn)
  have hpq : ∀ m, Upstream p m n → Upstream q m n := by
    intro m hm
    induction hm using ReflTransGen.head_induction_on with
    | refl => exact .refl
    | head hf hr ih =>
      exact .head ⟨hk _ (.head hf hr), (h _ hr).1.upstream hf.2⟩ ih
  have hqp : ∀ m, Upstream q m n → Upstream p m n := by
    intro m hm
    induction hm using ReflTransGen.head_induction_on with
    | refl => exact .refl
    | head hf _ ih =>
      have hin := (h _ ih).1.symm.upstream hf.2
      exact .head ⟨(h _ ih).2 _ hin hf.1, hin⟩ ih
  refine ⟨fun m hm => ?_, fun m hm => ?_, fun m hm => ?_⟩
  · exact mem_closure.mpr ⟨hk n .refl, hpq m (mem_closure.mp hm).2⟩
  · exact mem_closure.mpr ⟨hn, hqp m (mem_closure.mp hm).2⟩
  · exact (h m (mem_closure.mp hm).2).1

end Dvt.Pipelines
