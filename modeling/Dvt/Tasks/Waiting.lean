import Dvt.Library.Runs
import Dvt.Tasks.NestedWait

/-! Interleavings of nested-wait reservations, releases and rebalances. -/

namespace Dvt.Tasks

open Library List

structure Waits where
  reservations : Reservations
  calls : List ReserveCall
  releases : List (List ReleaseCommand)

inductive WaitEvent
  | startReserve (request : ReserveRequest)
  | reserve (i : ℕ) (now : DateTime)
  | startRelease (parentTaskId childTaskId workerId : Option String)
  | release (i : ℕ)
  | rebalance (maxWaiters : ℕ)

def ReserveCall.request : ReserveCall → ReserveRequest
  | .getting request => request
  | .listing request => request
  | .reserving request => request
  | .returned request _ => request

namespace Waits

def step (σ : Waits) : WaitEvent → Waits
  | .startReserve request => { σ with calls := σ.calls ++ [.getting request] }
  | .reserve i now =>
    { σ with
      reservations := σ.calls[i]?.elim σ.reservations fun call =>
        (reserveStep now σ.reservations call).1
      calls := σ.calls.modify i fun call => (reserveStep now σ.reservations call).2 }
  | .startRelease parentTaskId childTaskId workerId =>
    { σ with releases := σ.releases ++ [releaseNestedWait parentTaskId childTaskId workerId] }
  | .release i =>
    { σ with
      reservations := σ.releases[i]?.elim σ.reservations fun program =>
        (releaseStep σ.reservations program).1
      releases := σ.releases.modify i fun program => (releaseStep σ.reservations program).2 }
  | .rebalance maxWaiters => { σ with reservations := (σ.reservations.rebalance maxWaiters).2 }

end Waits

lemma reserveStep_request (now : DateTime) (t : Reservations) (call : ReserveCall) :
    (reserveStep now t call).2.request = call.request := by
  cases call with
  | getting request =>
    simp only [reserveStep]
    split
    · split <;> rfl
    · rfl
  | listing request =>
    simp only [reserveStep]
    split <;> rfl
  | reserving request | returned request decision => rfl

lemma reserveStep_length (now : DateTime) (t : Reservations) (call : ReserveCall) :
    (reserveStep now t call).1.rows.length ≤ max t.rows.length call.request.maxWaiters := by
  cases call with
  | getting request =>
    simp only [reserveStep]
    split
    · split <;> exact le_max_left _ _
    · exact le_max_left _ _
  | listing request =>
    simp only [reserveStep]
    split <;> exact le_max_left _ _
  | reserving request => exact t.length_reserve _ _
  | returned request decision => exact le_max_left _ _

lemma releaseStep_length (t : Reservations) (program : List ReleaseCommand) :
    (releaseStep t program).1.rows.length ≤ t.rows.length := by
  cases program with
  | nil => exact le_rfl
  | cons command rest =>
    cases command with
    | byParent parentTaskId => exact t.length_hdel_le _
    | scanChild childTaskId | scanWorker workerId => exact le_rfl
    | hdel parents => exact t.length_hdel_le _

variable {alive : Finset String}

def WaitEvent.SeesAlive (alive : Finset String) : WaitEvent → Prop
  | .startReserve request => request.aliveWorkerIds.toFinset = alive
  | _ => True

structure Waits.WithinCapacity (alive : Finset String) (σ : Waits) : Prop where
  calls : ∀ call ∈ σ.calls, call.request.aliveWorkerIds.toFinset = alive
  bound : σ.reservations.rows.length + 1 ≤ alive.card

lemma Waits.WithinCapacity.step {σ : Waits} (h : σ.WithinCapacity alive) {e : WaitEvent}
    (he : e.SeesAlive alive) : (σ.step e).WithinCapacity alive := by
  cases e with
  | startReserve request =>
    refine ⟨?_, h.bound⟩
    intro call hc
    rcases mem_append.mp hc with hc | hc
    · exact h.calls call hc
    · obtain rfl := mem_singleton.mp hc
      exact he
  | startRelease parentTaskId childTaskId workerId => exact ⟨h.calls, h.bound⟩
  | reserve i now =>
    constructor
    · intro call hc
      rcases mem_modify hc with hc | ⟨call', hcall, rfl⟩
      · exact h.calls call hc
      · rw [reserveStep_request]
        exact h.calls call' (mem_of_getElem? hcall)
    · simp only [Waits.step]
      cases hcall : σ.calls[i]? with
      | none => exact h.bound
      | some call =>
        have hlen := reserveStep_length now σ.reservations call
        have ha := h.calls call (mem_of_getElem? hcall)
        have hb := h.bound
        rw [ReserveRequest.maxWaiters, ha] at hlen
        simp only [Option.elim_some]
        omega
  | release i =>
    refine ⟨h.calls, ?_⟩
    simp only [Waits.step]
    cases hp : σ.releases[i]? with
    | none => exact h.bound
    | some program =>
      have hlen := releaseStep_length σ.reservations program
      have hb := h.bound
      simp only [Option.elim_some]
      omega
  | rebalance maxWaiters =>
    have hlen := (σ.reservations.rebalance_length maxWaiters).2
    have hb := h.bound
    refine ⟨h.calls, ?_⟩
    simp only [Waits.step]
    omega

theorem nested_waits_within_capacity (σ : Waits) (alive alive' : Finset String)
    (hcalls : ∀ call ∈ σ.calls, call.request.aliveWorkerIds.toFinset = alive)
    (hbound : σ.reservations.rows.length + 1 ≤ alive.card) (xs : List WaitEvent)
    (hxs : ∀ e ∈ xs, e.SeesAlive alive) :
    (∀ pre, pre <+: xs → (run Waits.step σ pre).reservations.rows.length + 1 ≤ alive.card ∧
      ∃ w ∈ alive, ∀ r ∈ (run Waits.step σ pre).reservations.rows, r.originWorkerId ≠ w) ∧
    (∀ t evicted t', Reservations.rebalance t (alive'.card - 1) = (evicted, t') →
      t'.rows.length ≤ alive'.card - 1 ∧
      (alive'.Nonempty → ∃ w ∈ alive', ∀ r ∈ t'.rows, r.originWorkerId ≠ w) ∧
      evicted.length = t.rows.length - (alive'.card - 1) ∧
      (evicted ++ t'.rows).Perm t.rows ∧
      (evicted.Pairwise fun a b =>
        toLex (b.createdAt, b.parentTaskId) ≤ toLex (a.createdAt, a.parentTaskId)) ∧
      ∀ r ∈ evicted, ∀ q ∈ t'.rows,
        toLex (q.createdAt, q.parentTaskId) < toLex (r.createdAt, r.parentTaskId)) := by
  constructor
  · intro pre hpre
    have hal : Along Waits.step (fun _ _ => True) σ pre := along_true σ pre
    have hrun := (hal.and_forall fun e he => hxs e (hpre.subset he)).invariant
      (P := Waits.WithinCapacity alive) (fun σ e he h => h.step he.2) ⟨hcalls, hbound⟩
    exact ⟨hrun.bound, Reservations.exists_free_worker hrun.bound⟩
  · intro t evicted t' he
    obtain ⟨hevicted, hkept⟩ := t.rebalance_length (alive'.card - 1)
    have hperm := t.rebalance_perm (alive'.card - 1)
    have hsorted := t.rebalance_sorted (alive'.card - 1)
    have hnewest := t.rebalance_newest (alive'.card - 1)
    rw [he] at hevicted hkept hperm hsorted hnewest
    have hle : t'.rows.length ≤ alive'.card - 1 := by
      rw [hkept]
      exact min_le_right _ _
    refine ⟨hle, ?_, hevicted, hperm, hsorted, hnewest⟩
    intro hne
    have hpos := hne.card_pos
    exact Reservations.exists_free_worker (by omega)

def sampleRequest (parentTaskId childTaskId originWorkerId : String) : ReserveRequest where
  parentTaskId := parentTaskId
  childTaskId := childTaskId
  originWorkerId := originWorkerId
  aliveWorkerIds := ["first", "second", "third"]

def sampleReserve : List WaitEvent :=
  [.startReserve (sampleRequest "parent" "child" "first"), .reserve 0 sampleTime, .reserve 0 sampleTime,
    .reserve 0 sampleTime]

theorem nested_waits_within_capacity_sampleReserve :
    (run Waits.step ⟨.empty, [], []⟩ sampleReserve).reservations.rows.length = 1 ∧
      ∃ w ∈ ({"first", "second", "third"} : Finset String),
        ∀ r ∈ (run Waits.step ⟨.empty, [], []⟩ sampleReserve).reservations.rows,
          r.originWorkerId ≠ w := by
  refine ⟨by decide, ?_⟩
  refine ((nested_waits_within_capacity ⟨.empty, [], []⟩ {"first", "second", "third"} ∅ ?_ (by decide)
    sampleReserve ?_).1 sampleReserve (prefix_refl _)).2
  · intro call hc
    cases hc
  · intro e he
    simp only [sampleReserve, mem_cons, not_mem_nil, or_false] at he
    rcases he with rfl | rfl | rfl | rfl
    · show ["first", "second", "third"].toFinset = _
      decide
    · trivial
    · trivial
    · trivial

def Owns (t : Reservations) (request : ReserveRequest) : Prop :=
  ∃ r, t.get request.parentTaskId = some r ∧ r.childTaskId = request.childTaskId ∧
    r.originWorkerId = request.originWorkerId

namespace Waits

def Accepts (σ : Waits) (e : WaitEvent) (request : ReserveRequest) : Prop :=
  ∃ i now call decision, e = .reserve i now ∧ σ.calls[i]? = some call ∧
    (∀ request' decision', call ≠ .returned request' decision') ∧
    (reserveStep now σ.reservations call).2 = .returned request decision ∧
    decision.accepted = true

def FindsOwn (σ : Waits) (e : WaitEvent) : Prop :=
  ∀ i now request existing, e = .reserve i now → σ.calls[i]? = some (.reserving request) →
    σ.reservations.get request.parentTaskId = some existing →
    existing.childTaskId = request.childTaskId ∧ existing.originWorkerId = request.originWorkerId

def Ready (σ : Waits) : Prop :=
  ∀ request, ReserveCall.reserving request ∈ σ.calls → 0 < request.maxWaiters

variable {σ : Waits}

lemma step_ready (h : σ.Ready) (e : WaitEvent) : (σ.step e).Ready := by
  intro request hr
  cases e with
  | startReserve request' =>
    rcases mem_append.mp hr with hr | hr
    · exact h request hr
    · cases mem_singleton.mp hr
  | startRelease parentTaskId childTaskId workerId | release i | rebalance maxWaiters =>
    exact h request hr
  | reserve i now =>
    rcases mem_modify hr with hr | ⟨call, hcall, he⟩
    · exact h request hr
    · cases call with
      | getting request' =>
        simp only [reserveStep] at he
        split at he
        · split at he <;> cases he
        · cases he
      | listing request' =>
        simp only [reserveStep] at he
        split at he
        · next hacc =>
          cases he
          have hc := (decideNestedWaitReservation_accepted hacc).2
          rw [ReserveRequest.maxWaiters]
          omega
        · cases he
      | reserving request' | returned request' decision => cases he

lemma step_reservations {i : ℕ} {now : DateTime} {call : ReserveCall}
    (h : σ.calls[i]? = some call) :
    (σ.step (.reserve i now)).reservations = (reserveStep now σ.reservations call).1 := by
  simp only [step, h, Option.elim_some]

variable {e : WaitEvent}

lemma accepts_owns_of_findsOwn (hready : σ.Ready) (h : σ.FindsOwn e)
    {request : ReserveRequest} (ha : σ.Accepts e request) :
    Owns (σ.step e).reservations request := by
  obtain ⟨i, now, call, decision, rfl, hcall, hopen, hret, hacc⟩ := ha
  rw [step_reservations hcall]
  cases call with
  | returned request' decision' => exact absurd rfl (hopen request' decision')
  | getting request' =>
    simp only [reserveStep] at hret ⊢
    cases hg : σ.reservations.get request'.parentTaskId with
    | none =>
      simp only [hg] at hret
      cases hret
    | some existing =>
      simp only [hg] at hret ⊢
      split
      · next hs =>
        rw [if_pos hs] at hret
        cases hret
        exact ⟨existing, hg, hs⟩
      · next hs =>
        rw [if_neg hs] at hret
        cases hret
        cases hacc
  | listing request' =>
    simp only [reserveStep] at hret
    split at hret
    · cases hret
    · next hn =>
      cases hret
      exact absurd hacc hn
  | reserving request' =>
    have hpos := hready request' (mem_of_getElem? hcall)
    simp only [reserveStep] at hret ⊢
    cases hret
    rcases σ.reservations.reserve_cases (request.reservation now) hpos with
      ⟨existing, hg, he⟩ | ⟨_, _, he⟩ | ⟨t', hg, _, ht, he⟩
    · rw [he]
      exact ⟨existing, hg, h i now request existing rfl hcall hg⟩
    · rw [he] at hacc
      cases hacc
    · rw [he]
      refine ⟨request.reservation now, ?_, rfl, rfl⟩
      exact (Table.lookup_insert ht hg _).trans (if_pos rfl)

lemma findsOwn_of_accepts_owns (hready : σ.Ready)
    (h : ∀ request, σ.Accepts e request → Owns (σ.step e).reservations request) : σ.FindsOwn e := by
  rintro i now request existing rfl hcall hg
  have hpos := hready request (mem_of_getElem? hcall)
  have he : σ.reservations.reserve (request.reservation now) request.maxWaiters =
      (true, σ.reservations) := by
    rcases σ.reservations.reserve_cases (request.reservation now) hpos with
      ⟨_, _, he⟩ | ⟨hn, _⟩ | ⟨_, hn, _⟩
    · exact he
    · cases hn.symm.trans hg
    · cases hn.symm.trans hg
  have hstep : reserveStep now σ.reservations (.reserving request) =
      (σ.reservations, .returned request ⟨true, none⟩) := by
    simp only [reserveStep, he, if_true]
  obtain ⟨r, hr, hown⟩ := h request ⟨i, now, _, _, rfl, hcall, by rintro _ _ ⟨⟩, by rw [hstep], rfl⟩
  rw [step_reservations hcall, hstep] at hr
  cases hr.symm.trans hg
  exact hown

end Waits

theorem accepted_wait_owns_iff (σ : Waits) (hcalls : σ.calls = []) (xs : List WaitEvent) :
    (∀ pre e request, pre ++ [e] <+: xs → (run Waits.step σ pre).Accepts e request →
      Owns (run Waits.step σ (pre ++ [e])).reservations request) ↔
    Along Waits.step Waits.FindsOwn σ xs := by
  have hready : ∀ pre, (run Waits.step σ pre).Ready := fun pre =>
    run_invariant (P := Waits.Ready) pre (fun σ e h => Waits.step_ready h e) (by simp [Waits.Ready, hcalls])
  rw [along_iff]
  constructor
  · intro h pre e hp
    refine Waits.findsOwn_of_accepts_owns (hready pre) fun request ha => ?_
    have howns := h pre e request hp ha
    rwa [run_snoc] at howns
  · intro h pre e request hp ha
    rw [run_snoc]
    exact Waits.accepts_owns_of_findsOwn (hready pre) (h pre e hp) ha

theorem accepted_wait_owns_sampleReserve :
    Along Waits.step Waits.FindsOwn ⟨.empty, [], []⟩ sampleReserve ∧
      Owns (run Waits.step ⟨.empty, [], []⟩ sampleReserve).reservations
        (sampleRequest "parent" "child" "first") := by
  have hal : Along Waits.step Waits.FindsOwn ⟨.empty, [], []⟩ sampleReserve := by
    refine ⟨?_, ?_, ?_, ?_, trivial⟩
    · rintro _ _ _ _ ⟨⟩
    · rintro _ _ request existing ⟨⟩ hcall
      cases hcall
    · rintro _ _ request existing ⟨⟩ hcall
      cases hcall
    · rintro _ _ request existing ⟨⟩ hcall hget
      cases hcall
      cases hget
  refine ⟨hal, (accepted_wait_owns_iff ⟨.empty, [], []⟩ rfl sampleReserve).mpr hal
    (sampleReserve.take 3) (.reserve 0 sampleTime) _ (prefix_refl _) ?_⟩
  exact ⟨0, sampleTime, .reserving (sampleRequest "parent" "child" "first"), ⟨true, none⟩, rfl, rfl,
    by rintro _ _ ⟨⟩, rfl, rfl⟩

def sampleRace : List WaitEvent :=
  [.startReserve (sampleRequest "parent" "child" "first"),
    .startReserve (sampleRequest "parent" "sibling" "first"),
    .reserve 0 sampleTime, .reserve 1 sampleTime, .reserve 0 sampleTime, .reserve 1 sampleTime,
    .reserve 0 sampleTime]

theorem sibling_wait_not_owned :
    (run Waits.step ⟨.empty, [], []⟩ sampleRace).Accepts (.reserve 1 sampleTime)
        (sampleRequest "parent" "sibling" "first") ∧
      ((run Waits.step ⟨.empty, [], []⟩ (sampleRace ++ [.reserve 1 sampleTime])).reservations.get
        "parent").map NestedWaitReservation.childTaskId = some "child" := by
  refine ⟨⟨1, sampleTime, .reserving (sampleRequest "parent" "sibling" "first"), ⟨true, none⟩, rfl, ?_,
    by rintro _ _ ⟨⟩, ?_, rfl⟩, ?_⟩
  · decide
  · decide
  · decide

end Dvt.Tasks
