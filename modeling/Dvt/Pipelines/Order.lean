import Dvt.Library.Search
import Dvt.Pipelines.Graph

/-! The dependency searches of a pipeline and its topological order. -/

namespace Dvt.Pipelines

open Library Relation

def upstreamOf (pipeline : Pipeline) (nodeId : String) : List String :=
  (pipeline.get? nodeId).elim [] fun data => linkedNodeIds data.inputs

def dependentsOf (pipeline : Pipeline) (nodeId : String) : List String :=
  pipeline.keys.filter fun id => nodeId ∈ pipeline.keys ∧ nodeId ∈ upstreamOf pipeline id

def findAllDependencies (pipeline : Pipeline) (targetNodes : List String) : List String :=
  search (· ∈ pipeline.keys) (upstreamOf pipeline)
    (pending (upstreamOf pipeline) pipeline.keys targetNodes []) targetNodes []

def findAllDependents (pipeline : Pipeline) (sourceNodes : List String) : List String :=
  search (· ∈ pipeline.keys) (dependentsOf pipeline)
    (pending (dependentsOf pipeline) pipeline.keys sourceNodes []) sourceNodes []

inductive GraphError
  | nodeNotFound (nodeId : String)
  | dependencyCycle (remaining : List String)
  deriving DecidableEq, Repr

def inDegrees (pipeline : Pipeline) : Dict String ℕ :=
  pipeline.keys.foldl (fun degrees id =>
    degrees.set id ((upstreamOf pipeline id).dedup.filter (· ∈ pipeline.keys)).length) .empty

def releaseDependents (degrees : Dict String ℕ) : List String → Dict String ℕ × List String
  | [] => (degrees, [])
  | id :: ids =>
    let degree := (degrees.get? id).getD 0 - 1
    let (degrees', ready) := releaseDependents (degrees.set id degree) ids
    (degrees', if degree = 0 then id :: ready else ready)

def kahn (dependents : String → List String) : ℕ → List String → Dict String ℕ → List String
  | 0, _, _ => []
  | _ + 1, [], _ => []
  | fuel + 1, id :: queue, degrees =>
    let (degrees', ready) := releaseDependents degrees (dependents id)
    id :: kahn dependents fuel (queue ++ ready) degrees'

/-- The source keeps the dependents in a set, whose order `dependents` gives. -/
def fullOrderBy (dependents : String → List String) (pipeline : Pipeline) : List String :=
  let degrees := inDegrees pipeline
  kahn dependents pipeline.keys.length (pipeline.keys.filter fun id => degrees.get? id = some 0) degrees

def fullOrder (pipeline : Pipeline) : List String := fullOrderBy (dependentsOf pipeline) pipeline

def topologicalSortBy (dependents : String → List String) (pipeline : Pipeline)
    (targetNodes : Option (List String)) : Except GraphError (List String) :=
  let targets := targetNodes.getD []
  match targets.find? (· ∉ pipeline.keys) with
  | some missing => .error (.nodeNotFound missing)
  | none =>
    let order := fullOrderBy dependents pipeline
    if order.length ≠ pipeline.keys.length then
      .error (.dependencyCycle (pipeline.keys.filter (· ∉ order)))
    else if targets = [] then .ok order
    else .ok (order.filter (· ∈ findAllDependencies pipeline targets))

def topologicalSort (pipeline : Pipeline) (targetNodes : Option (List String)) :
    Except GraphError (List String) :=
  topologicalSortBy (dependentsOf pipeline) pipeline targetNodes

def Feeds (pipeline : Pipeline) (m n : String) : Prop :=
  m ∈ pipeline.keys ∧ m ∈ upstreamOf pipeline n

abbrev Upstream (pipeline : Pipeline) : String → String → Prop := ReflTransGen (Feeds pipeline)

variable {p : Pipeline} {m n : String}

lemma mem_upstreamOf : m ∈ upstreamOf p n ↔
    ∃ data, p.get? n = some data ∧ m ∈ linkedNodeIds data.inputs := by
  rw [upstreamOf]
  cases hn : p.get? n with
  | none | some data => simp

lemma Feeds.mem_keys (h : Feeds p m n) : n ∈ p.keys := by
  obtain ⟨data, hn, _⟩ := mem_upstreamOf.mp h.2
  exact Dict.mem_keys.mpr ⟨data, hn⟩

lemma Upstream.mem_left (h : Upstream p m n) (hn : n ∈ p.keys) : m ∈ p.keys := by
  cases h using ReflTransGen.head_induction_on with
  | refl => exact hn
  | head hf _ => exact hf.1

lemma mem_dependentsOf : n ∈ dependentsOf p m ↔ Feeds p m n := by
  constructor
  · intro h
    simpa [Feeds] using (List.mem_filter.mp h).2
  · intro h
    refine List.mem_filter.mpr ⟨h.mem_keys, ?_⟩
    simpa [Feeds] using h

theorem mem_findAllDependents {sourceNodes : List String} : n ∈ findAllDependents p sourceNodes ↔
    ∃ s ∈ sourceNodes, s ∈ p.keys ∧ Upstream p s n := by
  have he : Edge (· ∈ p.keys) (dependentsOf p) = Feeds p := by
    funext x y
    simp only [Edge, mem_dependentsOf, decide_eq_true_eq, eq_iff_iff]
    exact ⟨fun h => h.1, fun h => ⟨h, h.mem_keys⟩⟩
  rw [findAllDependents, mem_search_iff p.nodup_keys (by simp) (Nat.le_refl _), he]
  simp

theorem mem_findAllDependencies {targetNodes : List String} :
    m ∈ findAllDependencies p targetNodes ↔ ∃ t ∈ targetNodes, t ∈ p.keys ∧ Upstream p m t := by
  have he : Edge (· ∈ p.keys) (upstreamOf p) = Function.swap (Feeds p) := by
    funext x y
    simp only [Edge, decide_eq_true_eq, eq_iff_iff]
    exact and_comm
  rw [findAllDependencies, mem_search_iff p.nodup_keys (by simp) (Nat.le_refl _), he]
  simp [reflTransGen_swap]

theorem mem_findAllDependents_singleton :
    n ∈ findAllDependents p [m] ↔ m ∈ findAllDependencies p [n] := by
  simp only [mem_findAllDependents, mem_findAllDependencies, List.mem_singleton, exists_eq_left]
  refine and_congr_left fun h => ⟨fun hm => ?_, h.mem_left⟩
  obtain rfl | ⟨k, -, hk⟩ := h.cases_tail
  · exact hm
  · exact hk.mem_keys

end Dvt.Pipelines
