import Dvt.Library.Table
import Dvt.Tasks.DateTime
import Dvt.Tasks.Policies
import Mathlib.Data.Prod.Lex

/-! Nested-wait reservations: the Valkey hash, its scripts, and their use cases. -/

namespace Dvt.Tasks

open Library List Table

structure NestedWaitReservation where
  parentTaskId : String
  childTaskId : String
  originWorkerId : String
  createdAt : DateTime
  deriving DecidableEq

def reservationSchema : Schema NestedWaitReservation := .unique NestedWaitReservation.parentTaskId

abbrev Reservations := Table reservationSchema

lemma parent_isKey : Table.IsKey reservationSchema NestedWaitReservation.parentTaskId :=
  fun _ _ h => h

namespace Reservations

def get (t : Reservations) (parentTaskId : String) : Option NestedWaitReservation :=
  t.lookup NestedWaitReservation.parentTaskId parentTaskId

def reserveScript (t : Reservations) (reservation : NestedWaitReservation) (maxWaiters : ℕ) :
    Bool × Reservations :=
  if (t.get reservation.parentTaskId).isSome then (true, t)
  else if maxWaiters ≤ t.rows.length then (false, t)
  else (t.insert reservation).elim (false, t) fun t' => (true, t')

def reserve (t : Reservations) (reservation : NestedWaitReservation) (maxWaiters : ℕ) :
    Bool × Reservations :=
  if maxWaiters = 0 then (false, t) else t.reserveScript reservation maxWaiters

def evictionKey (r : NestedWaitReservation) : String ×ₗ String :=
  toLex (r.createdAt.isoformat, r.parentTaskId)

def newestFirst (t : Reservations) : List NestedWaitReservation :=
  t.rows.insertionSort fun a b => evictionKey b ≤ evictionKey a

def hdel (t : Reservations) (parents : List String) : Reservations :=
  t.delete fun r => r.parentTaskId ∈ parents

def rebalance (t : Reservations) (maxWaiters : ℕ) : List NestedWaitReservation × Reservations :=
  if t.rows.length ≤ maxWaiters then ([], t)
  else
    let removed := t.newestFirst.take (t.rows.length - maxWaiters)
    (removed, t.hdel (removed.map NestedWaitReservation.parentTaskId))

end Reservations

inductive ReleaseCommand
  | byParent (parentTaskId : String)
  | scanChild (childTaskId : String)
  | scanWorker (workerId : String)
  | hdel (parents : List String)
  deriving DecidableEq

def releaseNestedWait (parentTaskId childTaskId workerId : Option String) : List ReleaseCommand :=
  (parentTaskId.map ReleaseCommand.byParent).toList ++
    (childTaskId.map ReleaseCommand.scanChild).toList ++
      (workerId.map ReleaseCommand.scanWorker).toList

def matching (t : Reservations) (p : NestedWaitReservation → Bool) : List String :=
  (t.select p).map NestedWaitReservation.parentTaskId

def releaseStep (t : Reservations) : List ReleaseCommand → Reservations × List ReleaseCommand
  | [] => (t, [])
  | .byParent parentTaskId :: rest => (t.hdel [parentTaskId], rest)
  | .scanChild childTaskId :: rest =>
    (t, .hdel (matching t fun r => r.childTaskId = childTaskId) :: rest)
  | .scanWorker workerId :: rest =>
    (t, .hdel (matching t fun r => r.originWorkerId = workerId) :: rest)
  | .hdel parents :: rest => (t.hdel parents, rest)

structure ReserveRequest where
  parentTaskId : String
  childTaskId : String
  originWorkerId : String
  aliveWorkerIds : List String
  deriving DecidableEq

inductive ReserveCall
  | getting (request : ReserveRequest)
  | listing (request : ReserveRequest)
  | reserving (request : ReserveRequest)
  | returned (request : ReserveRequest) (decision : NestedWaitDecision)
  deriving DecidableEq

def anotherReservation (parentTaskId : String) : NestedWaitDecision :=
  ⟨false, some s!"Parent task {parentTaskId} already owns another nested wait reservation."⟩

def capacityTaken : NestedWaitDecision :=
  ⟨false, some ("Nested wait rejected to prevent distributed deadlock: " ++
    "another parent reserved the remaining execution capacity concurrently.")⟩

def ReserveRequest.maxWaiters (request : ReserveRequest) : ℕ :=
  request.aliveWorkerIds.toFinset.card - 1

def ReserveRequest.reservation (request : ReserveRequest) (now : DateTime) : NestedWaitReservation where
  parentTaskId := request.parentTaskId
  childTaskId := request.childTaskId
  originWorkerId := request.originWorkerId
  createdAt := now

def reserveStep (now : DateTime) (t : Reservations) : ReserveCall → Reservations × ReserveCall
  | .getting request =>
    match t.get request.parentTaskId with
    | some existing =>
      if existing.childTaskId = request.childTaskId ∧
          existing.originWorkerId = request.originWorkerId then
        (t, .returned request ⟨true, none⟩)
      else (t, .returned request (anotherReservation request.parentTaskId))
    | none => (t, .listing request)
  | .listing request =>
    let decision := decideNestedWaitReservation request.originWorkerId request.aliveWorkerIds
      (t.rows.map NestedWaitReservation.originWorkerId)
    if decision.accepted then (t, .reserving request) else (t, .returned request decision)
  | .reserving request =>
    let (reserved, t') := t.reserve (request.reservation now) request.maxWaiters
    (t', .returned request (if reserved then ⟨true, none⟩ else capacityTaken))
  | .returned request decision => (t, .returned request decision)

namespace Reservations

variable {t : Reservations}

lemma length_hdel_le (parents : List String) : (t.hdel parents).rows.length ≤ t.rows.length :=
  length_filter_le _ _

lemma insert_of_get_none {r : NestedWaitReservation} (h : t.get r.parentTaskId = none) :
    ∃ t', t.insert r = some t' := by
  cases hi : t.insert r with
  | some t' => exact ⟨t', rfl⟩
  | none =>
    obtain ⟨q, hq, hc⟩ := insert_eq_none_iff.mp hi
    exact absurd hc (lookup_eq_none.mp h q hq)

lemma reserve_cases (r : NestedWaitReservation) {maxWaiters : ℕ} (hm : 0 < maxWaiters) :
    (∃ existing, t.get r.parentTaskId = some existing ∧ t.reserve r maxWaiters = (true, t)) ∨
    (t.get r.parentTaskId = none ∧ maxWaiters ≤ t.rows.length ∧
      t.reserve r maxWaiters = (false, t)) ∨
    ∃ t', t.get r.parentTaskId = none ∧ t.rows.length < maxWaiters ∧ t.insert r = some t' ∧
      t.reserve r maxWaiters = (true, t') := by
  simp only [reserve, reserveScript, if_neg hm.ne']
  cases hg : t.get r.parentTaskId with
  | some existing => exact .inl ⟨existing, rfl, by simp⟩
  | none =>
    by_cases hl : maxWaiters ≤ t.rows.length
    · exact .inr (.inl ⟨rfl, hl, by simp [hl]⟩)
    · obtain ⟨t', ht⟩ := insert_of_get_none hg
      exact .inr (.inr ⟨t', rfl, not_le.mp hl, ht, by simp [hl, ht]⟩)

lemma length_reserve (r : NestedWaitReservation) (maxWaiters : ℕ) :
    (t.reserve r maxWaiters).2.rows.length ≤ max t.rows.length maxWaiters := by
  rcases Nat.eq_zero_or_pos maxWaiters with rfl | hm
  · simp [reserve]
  · rcases reserve_cases r hm with ⟨_, _, he⟩ | ⟨_, _, he⟩ | ⟨t', _, hl, ht, he⟩
    · rw [he]
      exact le_max_left _ _
    · rw [he]
      exact le_max_left _ _
    · rw [he, rows_insert ht, length_append]
      exact le_max_of_le_right hl

lemma evictionKey_le_iff (a b : NestedWaitReservation) : evictionKey a ≤ evictionKey b ↔
      toLex (a.createdAt, a.parentTaskId) ≤ toLex (b.createdAt, b.parentTaskId) := by
  simp only [evictionKey, Prod.Lex.toLex_le_toLex, DateTime.isoformat_lt, DateTime.isoformat_inj]

section

variable (t)

lemma newestFirst_sorted : t.newestFirst.Pairwise fun a b => evictionKey b ≤ evictionKey a := by
  exact pairwise_insertionSort _ _

lemma newestFirst_perm : t.newestFirst.Perm t.rows := perm_insertionSort _ _

variable (maxWaiters : ℕ)

lemma rebalance_eq : (t.rebalance maxWaiters).1 = t.newestFirst.take (t.rows.length - maxWaiters) ∧
      (t.rebalance maxWaiters).2.rows.Perm (t.newestFirst.drop (t.rows.length - maxWaiters)) := by
  rw [rebalance]
  split
  · next hl =>
    rw [Nat.sub_eq_zero_of_le hl]
    exact ⟨rfl, t.newestFirst_perm.symm⟩
  · exact ⟨rfl, delete_take_perm parent_isKey t.newestFirst_perm _⟩

lemma rebalance_length : (t.rebalance maxWaiters).1.length = t.rows.length - maxWaiters ∧
      (t.rebalance maxWaiters).2.rows.length = min t.rows.length maxWaiters := by
  obtain ⟨hr, hk⟩ := t.rebalance_eq maxWaiters
  rw [hr, hk.length_eq, length_take, length_drop, t.newestFirst_perm.length_eq]
  omega

lemma rebalance_perm :
    ((t.rebalance maxWaiters).1 ++ (t.rebalance maxWaiters).2.rows).Perm t.rows := by
  obtain ⟨hr, hk⟩ := t.rebalance_eq maxWaiters
  rw [hr]
  have h := hk.append_left (t.newestFirst.take (t.rows.length - maxWaiters))
  rw [take_append_drop] at h
  exact h.trans t.newestFirst_perm

lemma rebalance_newest : ∀ r ∈ (t.rebalance maxWaiters).1, ∀ q ∈ (t.rebalance maxWaiters).2.rows,
      toLex (q.createdAt, q.parentTaskId) < toLex (r.createdAt, r.parentTaskId) := by
  intro r hr q hq
  obtain ⟨hrem, hk⟩ := t.rebalance_eq maxWaiters
  have hs := t.newestFirst_sorted
  have hn := (t.newestFirst_perm.map _).nodup_iff.mpr (nodup_keys parent_isKey t)
  rw [← take_append_drop (t.rows.length - maxWaiters) t.newestFirst] at hs hn
  rw [hrem] at hr
  rw [hk.mem_iff] at hq
  have hle : evictionKey q ≤ evictionKey r := (pairwise_append.mp hs).2.2 r hr q hq
  rw [map_append] at hn
  have hne : q.parentTaskId ≠ r.parentTaskId := fun he =>
    disjoint_of_nodup_append hn (mem_map_of_mem hr) (he ▸ mem_map_of_mem hq)
  refine lt_of_le_of_ne ((evictionKey_le_iff q r).mp hle) fun he => hne ?_
  exact congrArg (fun k => (ofLex k).2) he

lemma rebalance_sorted : (t.rebalance maxWaiters).1.Pairwise fun a b =>
      toLex (b.createdAt, b.parentTaskId) ≤ toLex (a.createdAt, a.parentTaskId) := by
  rw [(t.rebalance_eq maxWaiters).1]
  refine (t.newestFirst_sorted.sublist (take_sublist _ _)).imp fun {a b} h => ?_
  exact (evictionKey_le_iff b a).mp h

end

lemma exists_free_worker {t : Reservations} {alive : Finset String}
    (h : t.rows.length + 1 ≤ alive.card) :
    ∃ w ∈ alive, ∀ r ∈ t.rows, r.originWorkerId ≠ w := by
  have hc : ((t.rows.map NestedWaitReservation.originWorkerId).toFinset).card < alive.card := by
    calc ((t.rows.map NestedWaitReservation.originWorkerId).toFinset).card
        ≤ (t.rows.map NestedWaitReservation.originWorkerId).length := toFinset_card_le _
      _ = t.rows.length := length_map _
      _ < alive.card := h
  obtain ⟨w, hw, hf⟩ := Finset.exists_mem_notMem_of_card_lt_card hc
  refine ⟨w, hw, ?_⟩
  rintro r hr rfl
  exact hf (mem_toFinset.mpr (mem_map_of_mem hr))

end Reservations

end Dvt.Tasks
