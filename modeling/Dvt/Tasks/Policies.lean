import Dvt.Tasks.Types
import Mathlib.Data.Finset.Card

/-! Termination precedence and the admission of nested waits. -/

namespace Dvt.Tasks

open TaskTerminationReason

def terminationReasonPriority : TaskTerminationReason → ℕ
  | .supersededByNewerExecution => 10
  | .workerLost => 50
  | .userStop => 100
  | .userHardStop => 200
  | .nestedWaitCapacityLost => 300
  | .oomGuard => 400

def priorityOf : Option StoredReason → Option ℕ
  | some (.known reason) => some (terminationReasonPriority reason)
  | some (.legacy _ _) => none
  | none => none

def reasonRank (reason : Option StoredReason) : WithBot ℕ := priorityOf reason

def failureTerminationReasons : List TaskTerminationReason :=
  [.oomGuard, .workerLost, .nestedWaitCapacityLost]

def normalizeTerminationRequest (reason : Option StoredReason) (hard : Bool) : Option StoredReason :=
  if hard ∧ reason = some (.known .userStop) then some (.known .userHardStop) else reason

def chooseTerminationReason (current requested : Option StoredReason) (hard : Bool) :
    Option StoredReason :=
  let requested := normalizeTerminationRequest requested hard
  if current = none ∨ current = requested then requested
  else
    match priorityOf current, priorityOf requested with
    | _, none => current
    | none, some _ => requested
    | some currentPriority, some requestedPriority =>
      if requestedPriority > currentPriority then requested else current

def terminalStatusForTerminationReason : Option StoredReason → TaskExecutionStatus
  | some (.known reason) => if reason ∈ failureTerminationReasons then .error else .cancelled
  | _ => .cancelled

@[simp] lemma reasonRank_none : reasonRank none = ⊥ := rfl

@[simp] lemma chooseTerminationReason_none (requested : Option StoredReason) (hard : Bool) :
    chooseTerminationReason none requested hard = normalizeTerminationRequest requested hard := by
  simp [chooseTerminationReason]

lemma chooseTerminationReason_cases (current requested : Option StoredReason) (hard : Bool) :
    chooseTerminationReason current requested hard = current ∧ current ≠ none ∨
      chooseTerminationReason current requested hard = normalizeTerminationRequest requested hard ∧
        reasonRank current ≤ reasonRank (normalizeTerminationRequest requested hard) := by
  unfold chooseTerminationReason
  generalize normalizeTerminationRequest requested hard = wanted
  dsimp only
  split_ifs with h
  · rcases h with rfl | rfl
    · exact .inr ⟨rfl, bot_le⟩
    · exact .inr ⟨rfl, le_rfl⟩
  · have hn : current ≠ none := fun hc => h (.inl hc)
    split
    · exact .inl ⟨rfl, hn⟩
    · next hc _ =>
      refine .inr ⟨rfl, ?_⟩
      rw [reasonRank, hc]
      exact bot_le
    · next p q hc hr =>
      split
      · next hlt =>
        refine .inr ⟨rfl, ?_⟩
        rw [reasonRank, reasonRank, hc, hr]
        exact WithBot.coe_le_coe.mpr hlt.le
      · exact .inl ⟨rfl, hn⟩

lemma chooseTerminationReason_rank (current requested : Option StoredReason) (hard : Bool) :
    reasonRank current ≤ reasonRank (chooseTerminationReason current requested hard) := by
  rcases chooseTerminationReason_cases current requested hard with ⟨h, _⟩ | ⟨h, hle⟩
  · rw [h]
  · rwa [h]

lemma chooseTerminationReason_eq_current {current : Option StoredReason}
    {reason : TaskTerminationReason} (h : reasonRank (some (.known reason)) ≤ reasonRank current) :
    chooseTerminationReason current (some (.known reason)) false = current := by
  cases current with
  | none => exact absurd h (WithBot.not_coe_le_bot _)
  | some current =>
    cases current with
    | legacy text unknown => exact absurd h (WithBot.not_coe_le_bot _)
    | known stored =>
      have hle : terminationReasonPriority reason ≤ terminationReasonPriority stored :=
        WithBot.coe_le_coe.mp h
      by_cases he : stored = reason
      · subst he
        simp [chooseTerminationReason, normalizeTerminationRequest]
      · simp [chooseTerminationReason, normalizeTerminationRequest, priorityOf, he, hle]

lemma normalize_known (reason : TaskTerminationReason) (hard : Bool) :
    ∃ wanted, normalizeTerminationRequest (some (.known reason)) hard = some (.known wanted) ∧
      (wanted ∈ failureTerminationReasons ↔ reason ∈ failureTerminationReasons) := by
  cases hard <;> cases reason <;> exact ⟨_, rfl, by decide⟩

lemma terminalStatus_mem (reason : Option StoredReason) :
    terminalStatusForTerminationReason reason = .error ∨
      terminalStatusForTerminationReason reason = .cancelled := by
  simp only [terminalStatusForTerminationReason]
  split
  · split <;> simp
  · simp

structure NestedWaitDecision where
  accepted : Bool
  error : Option String := none
  deriving DecidableEq, Repr

def decideNestedWaitReservation (originWorkerId : String) (aliveWorkerIds : List String)
    (reservedOriginWorkerIds : List String) : NestedWaitDecision :=
  let alive := aliveWorkerIds.toFinset
  if originWorkerId ∉ alive then
    ⟨false, some s!"Nested wait origin worker {originWorkerId} is not alive."⟩
  else if alive.erase originWorkerId = ∅ then
    ⟨false, some <| "Nested wait is not allowed: no alive workers are available besides " ++
      s!"origin worker {originWorkerId}."⟩
  else
    let activeWaiters := reservedOriginWorkerIds.toFinset ∩ alive
    let prospectiveWaiters := insert originWorkerId activeWaiters
    let waits := prospectiveWaiters.card
    let slots := alive.card
    if waits ≥ slots then
      ⟨false, some <| "Nested wait rejected to prevent distributed deadlock: " ++
        s!"{waits} parent waits would occupy all {slots} alive worker slots."⟩
    else ⟨true, none⟩

lemma decideNestedWaitReservation_accepted {originWorkerId : String} {aliveWorkerIds reserved : List String}
    (h : (decideNestedWaitReservation originWorkerId aliveWorkerIds reserved).accepted = true) :
    originWorkerId ∈ aliveWorkerIds ∧ 2 ≤ aliveWorkerIds.toFinset.card := by
  rw [decideNestedWaitReservation] at h
  split_ifs at h with h₁ h₂
  refine ⟨List.mem_toFinset.mp h₁, ?_⟩
  have hc : 0 < (aliveWorkerIds.toFinset.erase originWorkerId).card :=
    Finset.card_pos.mpr (Finset.nonempty_iff_ne_empty.mpr h₂)
  rw [Finset.card_erase_of_mem h₁] at hc
  omega

end Dvt.Tasks
