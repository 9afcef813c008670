import Dvt.Caching.Generations
import Dvt.Library.Runs
import Mathlib.Algebra.BigOperators.Group.List.Basic
import Mathlib.Algebra.Ring.Nat

/-! The partitions in flight of one writer, whose callers lock section by section. -/

namespace Dvt.Caching

open Library List

/-- Bytes of calls without a future yet, of futures not registered yet, and of registered ones. -/
structure Capacity where
  acquired : List ℕ := []
  submitted : List ℕ := []
  pending : List ℕ := []
  pendingBytes : ℕ := 0
  deriving DecidableEq

inductive LockEvent
  | acquireCapacity (payloadBytes : ℕ)
  | rejected (payloadBytes : ℕ)
  | submit (payloadBytes : ℕ)
  | register (payloadBytes : ℕ)
  | done (payloadBytes : ℕ)

variable (policy : DataFrameCachePolicy)

def Capacity.step (s : Capacity) : LockEvent → Capacity
  | .acquireCapacity payloadBytes =>
    -- a call that waits looks again whenever it is notified
    if s.pending ≠ [] ∧ (policy.maxPendingPartitions ≤ s.pending.length ∨
        policy.maxPendingBytes < s.pendingBytes + payloadBytes) then s
    else { s with
      acquired := payloadBytes :: s.acquired, pendingBytes := s.pendingBytes + payloadBytes }
  | .rejected payloadBytes =>
    if payloadBytes ∈ s.acquired then { s with
      acquired := s.acquired.erase payloadBytes, pendingBytes := s.pendingBytes - payloadBytes }
    else s
  | .submit payloadBytes =>
    if payloadBytes ∈ s.acquired then { s with
      acquired := s.acquired.erase payloadBytes, submitted := payloadBytes :: s.submitted }
    else s
  | .register payloadBytes =>
    if payloadBytes ∈ s.submitted then { s with
      submitted := s.submitted.erase payloadBytes, pending := payloadBytes :: s.pending }
    else s
  | .done payloadBytes =>
    if payloadBytes ∈ s.pending then { s with
      pending := s.pending.erase payloadBytes, pendingBytes := s.pendingBytes - payloadBytes }
    else s

def Capacity.inFlight (s : Capacity) : List ℕ := s.submitted ++ s.pending

def Capacity.Bounded (s : Capacity) : Prop :=
  s.inFlight.length ≤ policy.maxPendingPartitions ∧
    (s.inFlight.sum ≤ policy.maxPendingBytes ∨ s.inFlight.length = 1)

/-- Where other calls are between their sections, the limits leave room for one more with these. -/
def LeavesRoom (s : Capacity) : LockEvent → Prop
  | .acquireCapacity payloadBytes => s.acquired ++ s.submitted ≠ [] →
      (s.acquired ++ s.submitted ++ s.pending).length < policy.maxPendingPartitions ∧
        s.pendingBytes + payloadBytes ≤ policy.maxPendingBytes
  | _ => True

structure Capacity.Accounted (s : Capacity) : Prop where
  bytes : s.pendingBytes = s.acquired.sum + s.submitted.sum + s.pending.sum
  count : s.acquired.length + s.submitted.length + s.pending.length ≤ policy.maxPendingPartitions
  limit : s.pendingBytes ≤ policy.maxPendingBytes ∨
    s.acquired.length + s.submitted.length + s.pending.length ≤ 1

variable {policy} {s : Capacity} {e : LockEvent} {events : List LockEvent}

lemma erase_eq {b : ℕ} {l : List ℕ} (h : b ∈ l) :
    (l.erase b).length + 1 = l.length ∧ b + (l.erase b).sum = l.sum :=
  ⟨length_erase_add_one h, sum_erase h⟩

lemma Capacity.Accounted.step (h : s.Accounted policy) (hroom : LeavesRoom policy s e) :
    (s.step policy e).Accounted policy := by
  have hpos := policy.pendingPartitions_pos
  obtain ⟨hb, hc, hl⟩ := h
  cases e with
  | acquireCapacity b =>
    rw [Capacity.step]
    split_ifs with hlac
    · exact ⟨hb, hc, hl⟩
    · by_cases hbetween : s.acquired ++ s.submitted = []
      · obtain ⟨ha, hs⟩ := append_eq_nil_iff.mp hbetween
        constructor <;> simp [hs] <;> grind
      · obtain ⟨hcount, hbytes⟩ := hroom hbetween
        rw [length_append, length_append] at hcount
        constructor <;> simp only [sum_cons, length_cons] <;> omega
  | rejected b =>
    rw [Capacity.step]
    split_ifs with hmem
    · have := erase_eq hmem
      constructor <;> dsimp only <;> omega
    · exact ⟨hb, hc, hl⟩
  | submit b | register b =>
    rw [Capacity.step]
    split_ifs with hmem
    · have := erase_eq hmem
      constructor <;> simp only [sum_cons, length_cons] <;> omega
    · exact ⟨hb, hc, hl⟩
  | done b =>
    rw [Capacity.step]
    split_ifs with hmem
    · have := erase_eq hmem
      constructor <;> dsimp only <;> omega
    · exact ⟨hb, hc, hl⟩

lemma Capacity.Accounted.bounded (h : s.Accounted policy) : s.Bounded policy := by
  obtain ⟨hb, hc, hl⟩ := h
  rw [Capacity.Bounded, Capacity.inFlight, length_append, sum_append]
  refine ⟨by omega, ?_⟩
  obtain hl | hone := hl
  · exact .inl (by omega)
  · obtain hn | hsome := Nat.eq_zero_or_pos (s.submitted.length + s.pending.length)
    · obtain ⟨hs, hp⟩ := Nat.add_eq_zero_iff.mp hn
      simp [length_eq_zero_iff.mp hs, length_eq_zero_iff.mp hp]
    · exact .inr (by omega)

theorem bounded_of_leavesRoom (h : Along (Capacity.step policy) (LeavesRoom policy) {} events) :
    ∀ pre, pre <+: events → (run (Capacity.step policy) {} pre).Bounded policy := by
  intro pre hpre
  have hinitial : ({} : Capacity).Accounted policy := ⟨rfl, Nat.zero_le _, .inl (Nat.zero_le _)⟩
  have hpre := h.of_isPrefix hpre
  exact (hpre.invariant (P := Capacity.Accounted policy) (fun _ _ he hs => hs.step he) hinitial).bounded

theorem bounded_of_leavesRoom_sample :
    (run (Capacity.step {}) {} [.acquireCapacity 3, .acquireCapacity 4, .submit 3, .submit 4]).Bounded
      {} := by
  refine bounded_of_leavesRoom ?_ _ (prefix_refl _)
  exact ⟨nofun, fun _ => by decide, trivial, trivial, trivial⟩

/-- Two calls find no registered write, and both go on. -/
theorem not_bounded_concurrent : ¬ (run (Capacity.step { maxPendingPartitions := 1, maxPendingBytes := 1 })
    {} [.acquireCapacity 1, .acquireCapacity 1, .submit 1, .submit 1]).Bounded
      { maxPendingPartitions := 1, maxPendingBytes := 1 } := by
  rw [Capacity.Bounded]
  decide

end Dvt.Caching
