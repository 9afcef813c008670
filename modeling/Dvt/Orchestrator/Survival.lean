import Dvt.Orchestrator.Knowledge

/-! Which nested-wait reservations survive the supervisor. -/

namespace Dvt.Orchestrator

open Library Tasks List Supervisor

def Command.Inspects (r : NestedWaitReservation) : Command → Prop
  | .inspectWorker _ q => q = r
  | .inspectParent q _ => q = r
  | .inspectChild q dead => q = r ∧ dead = true
  | .release (.deadReservation q) (.byParent parentTaskId) =>
    q = r ∧ parentTaskId = r.parentTaskId
  | _ => False

inductive Covered (s : Shared) (r : NestedWaitReservation) : List Command → Prop
  | nil : Covered s r []
  | stored {pass : List Command} (h : (s.store.task? r.parentTaskId).isSome) : Covered s r pass
  | inspected {command : Command} {rest : List Command} (h : command.Inspects r) :
      Covered s r (command :: rest)
  | skip {command : Command} {rest : List Command} (hc : ∀ nowTs, command ≠ .rebalance nowTs)
      (h : Covered s r rest) : Covered s r (command :: rest)

variable {cfg : Config} {now : DateTime} {s s' : Shared} {r : NestedWaitReservation}

lemma Covered.later (hl : Later cfg s s') {pass : List Command} (h : Covered s r pass) :
    Covered s' r pass := by
  induction h with
  | nil => exact .nil
  | stored h => exact .stored (hl.stored _ h)
  | inspected h => exact .inspected h
  | skip hc _ ih => exact .skip hc ih

variable {next rest : List Command}

lemma Covered.append (h : Covered s r rest)
    (hn : ∀ c ∈ next, ∀ nowTs, c ≠ .rebalance nowTs) : Covered s r (next ++ rest) := by
  induction next with
  | nil => exact h
  | cons c next ih =>
    obtain ⟨hc, hn⟩ := forall_mem_cons.mp hn
    exact .skip hc (ih hn)

lemma Command.Inspects.covered {c : Command} (hc : c ∈ next)
    (h : c.Inspects r) (hn : ∀ c ∈ next, ∀ nowTs, c ≠ .rebalance nowTs) :
    Covered s r (next ++ rest) := by
  induction next with
  | nil => cases hc
  | cons d next ih =>
    obtain ⟨hd, hn⟩ := forall_mem_cons.mp hn
    rcases mem_cons.mp hc with rfl | hc
    · exact .inspected h
    · exact .skip hd (ih hc hn)

lemma mem_hdel {t : Reservations} {parents : List String} :
    r ∈ (t.hdel parents).rows ↔ r ∈ t.rows ∧ r.parentTaskId ∉ parents := by
  simp [Reservations.hdel]

lemma cleanupRuntime_not_rebalance {taskId workerId : String} {byTask byWorker : Grounds} :
    ∀ c ∈ cleanupRuntime taskId workerId byTask byWorker, ∀ nowTs, c ≠ .rebalance nowTs := by
  intro c hc nowTs
  simp only [cleanupRuntime, mem_cons, not_mem_nil, or_false] at hc
  rcases hc with rfl | rfl | rfl | rfl | rfl <;> simp

variable {command : Command}

lemma exec_not_rebalance (hl : command ≠ .listReservations)
    (h : (exec cfg now s command).2 = some next) : ∀ c ∈ next, ∀ nowTs, c ≠ .rebalance nowTs := by
  rintro _ hc nowTs rfl
  cases command with
  | listReservations => exact hl rfl
  | checkActive nowTs task =>
    simp only [exec, checkActive, Option.some.injEq] at h
    subst h
    split at hc
    · cases hc
    · split_ifs at hc <;> simp at hc
  | finalizeLost task workerId =>
    simp only [exec, finalizeLost, Option.some.injEq] at h
    subst h
    split at hc
    · cases hc
    · exact cleanupRuntime_not_rebalance _ hc nowTs rfl
  | listStale nowTs' activeIds =>
    cases h
    obtain ⟨commands, hm, hc⟩ := mem_flatten.mp hc
    obtain ⟨record, _, rfl⟩ := mem_map.mp hm
    exact cleanupRuntime_not_rebalance _ hc nowTs rfl
  | checkCancelRequested nowTs task =>
    simp only [exec, checkCancelRequested, Option.some.injEq] at h
    subst h
    split_ifs at hc <;> simp at hc
  | finalizeCancelRequested task status message =>
    simp only [exec, finalizeCancelRequested, Option.some.injEq] at h
    subst h
    split_ifs at hc <;> simp at hc
  | hardStop taskId =>
    simp only [exec, hardStop] at h
    split at h
    · cases h
    · obtain rfl := Option.some.inj h
      split_ifs at hc <;> simp at hc
  | inspectChild reservation dead =>
    cases h
    split_ifs at hc <;> simp at hc
  | _ =>
    cases h
    simp at hc

lemma exec_inspects (hi : command.Inspects r) (h : (exec cfg now s command).2 = some next)
    (hr : r ∈ (exec cfg now s command).1.reservations.rows) :
    ((exec cfg now s command).1.store.task? r.parentTaskId).isSome ∨ ∃ c ∈ next, c.Inspects r := by
  cases command with
  | inspectWorker nowTs q =>
    cases h
    exact .inr ⟨_, mem_singleton_self _, hi⟩
  | inspectParent q alive =>
    cases h
    obtain rfl : q = r := hi
    cases hq : s.store.task? q.parentTaskId with
    | none => exact .inr ⟨_, mem_singleton_self _, rfl, by simp⟩
    | some parent =>
      refine .inl ?_
      simp [exec, hq]
  | inspectChild q dead =>
    cases h
    obtain ⟨rfl, rfl⟩ := hi
    exact .inr ⟨_, mem_singleton_self _, rfl, rfl⟩
  | release grounds command =>
    cases grounds with
    | deadReservation q =>
      cases command with
      | byParent parentTaskId =>
        obtain ⟨rfl, rfl⟩ := hi
        exact absurd (mem_singleton_self _) (mem_hdel.mp hr).2
      | _ => exact hi.elim
    | _ => exact hi.elim
  | _ => exact hi.elim

lemma exec_covered (hc : Covered s r (command :: rest)) (h : (exec cfg now s command).2 = some next)
    (hr : r ∈ (exec cfg now s command).1.reservations.rows) :
    Covered (exec cfg now s command).1 r (next ++ rest) := by
  by_cases hl : command = .listReservations
  · subst hl
    cases h
    rw [append_assoc]
    refine Command.Inspects.covered (mem_map_of_mem hr) rfl ?_
    intro c hc nowTs
    obtain ⟨q, _, rfl⟩ := mem_map.mp hc
    simp
  · have hn := exec_not_rebalance hl h
    cases hc with
    | stored hs => exact .stored ((exec_later command).stored _ hs)
    | inspected hi =>
      rcases exec_inspects hi h hr with hs | ⟨c, hc, hi⟩
      · exact .stored hs
      · exact hi.covered hc hn
    | skip _ hc => exact (hc.later (exec_later command)).append hn

structure Sound (cfg : Config) (σ : Supervisor) : Prop where
  knows : ∀ pass ∈ σ.passes, ∀ c ∈ pass, c.Knows cfg σ.shared
  covered : ∀ pass ∈ σ.passes, ∀ r ∈ σ.shared.reservations.rows, Covered σ.shared r pass

variable {σ : Supervisor}

lemma later_clock (s : Shared) (elapsed : ℕ) :
    Later cfg s { s with clock := s.clock + elapsed } := by
  refine ⟨by simp, List.Subset.refl _, fun w hd ha => ?_, fun _ h => h, fun _ h => h⟩
  obtain ⟨worker, hw, hst, hage⟩ := alive_iff.mp ha
  refine hd (alive_iff.mpr ⟨worker, hw, hst, ?_⟩)
  dsimp only at hage
  omega

lemma Sound.later {s' : Shared} (h : Sound cfg σ) (hl : Later cfg σ.shared s') :
    Sound cfg { σ with shared := s' } where
  knows pass hp c hc := (h.knows pass hp c hc).later hl
  covered pass hp r hr := (h.covered pass hp r (hl.reservations hr)).later hl

lemma execHead_later (cfg : Config) (now : DateTime) (s : Shared) (pass : List Command) :
    Later cfg s (execHead cfg now s pass).1 := by
  cases pass with
  | nil => exact Later.refl cfg s
  | cons command rest => exact exec_later command

lemma execHead_sound (now : DateTime) (h : Sound cfg σ) {pass : List Command} (hp : pass ∈ σ.passes) :
    (∀ c ∈ (execHead cfg now σ.shared pass).2, c.Knows cfg (execHead cfg now σ.shared pass).1) ∧
      ∀ r ∈ (execHead cfg now σ.shared pass).1.reservations.rows,
        Covered (execHead cfg now σ.shared pass).1 r (execHead cfg now σ.shared pass).2 := by
  cases pass with
  | nil => exact ⟨fun c hc => (not_mem_nil hc).elim, fun r _ => .nil⟩
  | cons command rest =>
    have hl : Later cfg σ.shared (exec cfg now σ.shared command).1 := exec_later command
    obtain ⟨hk, hrest⟩ := forall_mem_cons.mp (h.knows _ hp)
    simp only [execHead]
    cases hn : (exec cfg now σ.shared command).2 with
    | none => exact ⟨fun c hc => (not_mem_nil hc).elim, fun r _ => .nil⟩
    | some next =>
      constructor
      · intro c hc
        rcases mem_append.mp hc with hc | hc
        · refine exec_knows hk ?_ hn c hc
          rintro nowTs rfl r hr
          cases h.covered _ hp r hr with
          | stored hs => exact hs
          | inspected hi => exact hi.elim
          | skip hc _ => exact absurd rfl (hc nowTs)
        · exact (hrest c hc).later hl
      · intro r hr
        exact exec_covered (h.covered _ hp r (hl.reservations hr)) hn hr

lemma Sound.step (h : Sound cfg σ) (e : Event) : Sound cfg (σ.step cfg e) := by
  cases e with
  | advance elapsed => exact h.later (later_clock σ.shared elapsed)
  | start pass =>
    constructor
    · intro p hp
      rcases mem_append.mp hp with hp | hp
      · exact h.knows p hp
      · obtain rfl := mem_singleton.mp hp
        cases pass <;> simp [passProgram, Command.Knows, Supervisor.step]
    · intro p hp r hr
      rcases mem_append.mp hp with hp | hp
      · exact h.covered p hp r hr
      · obtain rfl := mem_singleton.mp hp
        refine append_nil (passProgram σ.shared pass) ▸ Covered.append .nil ?_
        cases pass <;> simp [passProgram]
  | step i now =>
    cases hi : σ.passes[i]? with
    | none =>
      have hm : σ.passes.modify i (fun pass => (execHead cfg now σ.shared pass).2) = σ.passes :=
        modify_eq_self (List.getElem?_eq_none_iff.mp hi)
      simp only [Supervisor.step, hi, hm]
      exact h
    | some pass =>
      have hpass := mem_of_getElem? hi
      have hl := h.later (execHead_later cfg now σ.shared pass)
      obtain ⟨hk, hc⟩ := execHead_sound now h hpass
      simp only [Supervisor.step, hi]
      constructor
      · intro p hp
        rcases mem_modify hp with hp | ⟨q, hq, rfl⟩
        · exact hl.knows p hp
        · cases hi.symm.trans hq
          exact hk
      · intro p hp r hr
        rcases mem_modify hp with hp | ⟨q, hq, rfl⟩
        · exact hl.covered p hp r hr
        · cases hi.symm.trans hq
          exact hc r hr

theorem run_sound (hσ : σ.passes = []) (xs : List Event) : Sound cfg (run (step cfg) σ xs) := by
  refine run_invariant xs (fun _ e h => h.step e) ⟨?_, ?_⟩
  · simp [hσ]
  · simp [hσ]

def Deletes (r : NestedWaitReservation) : ReleaseCommand → Prop
  | .byParent parentTaskId => r.parentTaskId = parentTaskId
  | .hdel parents => r.parentTaskId ∈ parents
  | .scanChild _ => False
  | .scanWorker _ => False

def Grounds.Unverified : Grounds → Prop
  | .workerOfFinalized _ => True
  | .orphanTelemetry _ => True
  | .closedTask _ => False
  | .lostWorker _ => False
  | .deadReservation _ => False

def Supervisor.running (σ : Supervisor) : Event → Option Command
  | .step i _ => σ.passes[i]?.bind List.head?
  | .advance _ => none
  | .start _ => none

def Evicts (cfg : Config) (σ : Supervisor) (r : NestedWaitReservation) (e : Event) : Prop :=
  ∃ nowTs, σ.running e = some (.rebalance nowTs) ∧ r ∈ (rebalanceWaits cfg σ.shared nowTs).1

def HardStopUnderway (σ : Supervisor) (taskId : String) : Prop :=
  taskId ∈ σ.shared.hardStops ∨ ∃ pass ∈ σ.passes, .hardStop taskId ∈ pass

def Spares (cfg : Config) (σ : Supervisor) (e : Event) : Prop :=
  ∀ grounds command, σ.running e = some (.release grounds command) → grounds.Unverified →
    ∀ r, Live cfg σ.shared r → ¬ Deletes r command

lemma releaseStep_removes {t : Reservations} {command : ReleaseCommand} (hr : r ∈ t.rows) :
    r ∉ (releaseStep t [command]).1.rows ↔ Deletes r command := by
  cases command with
  | byParent parentTaskId | hdel parents => simp [releaseStep, mem_hdel, hr, Deletes]
  | scanChild childTaskId | scanWorker workerId => simp [releaseStep, hr, Deletes]

lemma exec_removes (hr : r ∈ s.reservations.rows)
    (hn : r ∉ (exec cfg now s command).1.reservations.rows) :
    (∃ grounds released, command = .release grounds released ∧ Deletes r released) ∨
      ∃ nowTs, command = .rebalance nowTs ∧ r ∈ (rebalanceWaits cfg s nowTs).1 := by
  cases command with
  | release grounds released =>
    exact .inl ⟨grounds, released, rfl, (releaseStep_removes hr).mp hn⟩
  | rebalance nowTs =>
    refine .inr ⟨nowTs, rfl, ?_⟩
    have hmem := (s.reservations.rebalance_perm
      ((s.workers.aliveIds nowTs cfg.heartbeatTimeout).card - 1)).symm.subset hr
    exact (mem_append.mp hmem).resolve_right hn
  | checkActive nowTs task =>
    refine absurd ?_ hn
    simp only [exec, checkActive]
    split
    · exact hr
    · split_ifs <;> exact hr
  | finalizeCancelRequested task status message =>
    refine absurd ?_ hn
    simp only [exec, finalizeCancelRequested]
    split_ifs <;> exact hr
  | hardStop taskId =>
    refine absurd ?_ hn
    simp only [exec, hardStop]
    split <;> exact hr
  | _ => exact absurd hr hn

lemma Justified.not_live {grounds : Grounds} {command : ReleaseCommand}
    (h : Justified cfg s grounds command) (hg : ¬ grounds.Unverified) (hd : Deletes r command) :
    ¬ Live cfg s r := by
  intro hl
  cases grounds with
  | closedTask taskId =>
    cases command with
    | byParent parentTaskId => exact h.1 (h.2 ▸ hd ▸ hl.parent)
    | hdel parents => exact h.1 (h.2 r hl.stored hd ▸ hl.child)
    | scanChild childTaskId | scanWorker workerId => exact hd
  | lostWorker workerId =>
    cases command with
    | byParent parentTaskId => exact h
    | hdel parents => exact h.1 (h.2 r hl.stored hd ▸ hl.worker)
    | scanChild childTaskId | scanWorker workerId => exact hd
  | deadReservation q =>
    cases command with
    | byParent parentTaskId =>
      obtain ⟨rfl, ho, hdead⟩ := h
      obtain rfl := ho r hl.stored hd
      rcases hdead with hdead | hdead | hdead
      · exact hdead hl.worker
      · exact hdead hl.parent
      · exact hdead hl.child
    | _ => exact h
  | workerOfFinalized workerId | orphanTelemetry record => exact hg trivial

variable {e : Event}

lemma running_eq (h : σ.running e = some command) :
    ∃ i now rest, e = .step i now ∧ σ.passes[i]? = some (command :: rest) := by
  cases e with
  | step i now =>
    obtain ⟨pass, hi, hh⟩ := Option.bind_eq_some_iff.mp h
    obtain ⟨rest, rfl⟩ := List.head?_eq_some_iff.mp hh
    exact ⟨i, now, rest, rfl, hi⟩
  | advance elapsed | start pass => cases h

lemma step_running {i : ℕ} {now : DateTime} {rest : List Command}
    (h : σ.passes[i]? = some (command :: rest)) :
    (σ.step cfg (.step i now)).shared = (exec cfg now σ.shared command).1 := by
  simp [step, h, execHead]

lemma step_removes (hr : r ∈ σ.shared.reservations.rows)
    (hn : r ∉ (σ.step cfg e).shared.reservations.rows) :
    (∃ grounds command, σ.running e = some (.release grounds command) ∧ Deletes r command) ∨
      Evicts cfg σ r e := by
  cases e with
  | advance elapsed | start pass => exact absurd hr hn
  | step i now =>
    cases hi : σ.passes[i]? with
    | none =>
      simp only [step, hi] at hn
      exact absurd hr hn
    | some pass =>
      cases pass with
      | nil =>
        simp only [step, hi] at hn
        exact absurd hr hn
      | cons command rest =>
        have hrun : σ.running (.step i now) = some command := by simp [running, hi]
        rw [step_running hi] at hn
        rcases exec_removes hr hn with ⟨grounds, released, rfl, hd⟩ | ⟨nowTs, rfl, he⟩
        · exact .inl ⟨grounds, released, hrun, hd⟩
        · exact .inr ⟨nowTs, hrun, he⟩

variable {taskId : String}

lemma hardStop_recorded (h : (s.store.task? taskId).isSome) :
    taskId ∈ (hardStop now s taskId).1.hardStops ∧ (hardStop now s taskId).2 ≠ none := by
  obtain ⟨row, hrow⟩ := Option.isSome_iff_exists.mp h
  rw [hardStop, requestStop, hrow]
  dsimp only
  split_ifs <;> simp

lemma exec_hardStops (command : Command) : s.hardStops ⊆ (exec cfg now s command).1.hardStops := by
  intro taskId hm
  cases command with
  | checkActive nowTs task =>
    simp only [exec, checkActive]
    split
    · exact hm
    · split_ifs <;> exact hm
  | finalizeCancelRequested task status message =>
    simp only [exec, finalizeCancelRequested]
    split_ifs <;> exact hm
  | hardStop stopped =>
    simp only [exec, hardStop]
    split
    · exact hm
    · exact mem_append_left _ hm
  | _ => exact hm

lemma exec_continues (now : DateTime) (hk : command.Knows cfg s) :
    ∃ next, (exec cfg now s command).2 = some next := by
  cases command with
  | hardStop taskId => exact Option.ne_none_iff_exists'.mp (hardStop_recorded hk).2
  | _ => exact ⟨_, rfl⟩

lemma HardStopUnderway.step (hs : Sound cfg σ) (h : HardStopUnderway σ taskId)
    (e : Event) : HardStopUnderway (σ.step cfg e) taskId := by
  cases e with
  | advance elapsed => exact h
  | start pass =>
    refine h.imp_right ?_
    rintro ⟨p, hp, hm⟩
    exact ⟨p, mem_append_left _ hp, hm⟩
  | step i now =>
    rcases h with hm | ⟨pass, hp, hm⟩
    · refine .inl ?_
      cases hi : σ.passes[i]? with
      | none =>
        simp only [Supervisor.step, hi]
        exact hm
      | some pass =>
        cases pass with
        | nil =>
          simp only [Supervisor.step, hi]
          exact hm
        | cons command rest =>
          rw [step_running hi]
          exact exec_hardStops command hm
    · rcases mem_modify_of_mem i (fun pass => (execHead cfg now σ.shared pass).2) hp with hq | ⟨hi, hq⟩
      · exact .inr ⟨pass, hq, hm⟩
      · cases pass with
        | nil => cases hm
        | cons command rest =>
          have hk := hs.knows _ hp command mem_cons_self
          obtain ⟨next, hn⟩ := exec_continues now hk
          rcases mem_cons.mp hm with rfl | hm
          · refine .inl ?_
            rw [step_running hi]
            exact (hardStop_recorded hk).1
          · refine .inr ⟨_, hq, ?_⟩
            simp only [execHead, hn]
            exact mem_append_right _ hm

lemma Evicts.underway (h : Evicts cfg σ r e) : HardStopUnderway (σ.step cfg e) r.parentTaskId := by
  obtain ⟨nowTs, hrun, hr⟩ := h
  obtain ⟨i, now, rest, rfl, hi⟩ := running_eq hrun
  refine .inr ⟨_, moved_mem (fun pass => (execHead cfg now σ.shared pass).2) hi, ?_⟩
  exact mem_append_left _ (mem_map.mpr ⟨r, hr, rfl⟩)

lemma run_underway (hs : Sound cfg σ) (h : HardStopUnderway σ taskId)
    (xs : List Event) : HardStopUnderway (run (step cfg) σ xs) taskId := by
  have hb := run_invariant (P := fun σ => Sound cfg σ ∧ HardStopUnderway σ taskId) xs
    (fun σ e hσ => ⟨hσ.1.step e, hσ.2.step hσ.1 e⟩) ⟨hs, h⟩
  exact hb.2

lemma spares_iff (hs : Sound cfg σ) (e : Event) :
    (∀ r, Live cfg σ.shared r → r ∉ (σ.step cfg e).shared.reservations.rows → Evicts cfg σ r e) ↔
      Spares cfg σ e := by
  constructor
  · intro h grounds command hrun hg r hl hd
    obtain ⟨i, now, rest, rfl, hi⟩ := running_eq hrun
    have hn : r ∉ (σ.step cfg (.step i now)).shared.reservations.rows := by
      rw [step_running hi]
      exact (releaseStep_removes hl.stored).mpr hd
    obtain ⟨nowTs, hreb, _⟩ := h r hl hn
    cases hrun.symm.trans hreb
  · intro h r hl hn
    rcases step_removes hl.stored hn with ⟨grounds, command, hrun, hd⟩ | he
    · by_cases hg : grounds.Unverified
      · exact absurd hd (h grounds command hrun hg r hl)
      · obtain ⟨i, now, rest, rfl, hi⟩ := running_eq hrun
        have hj : Justified cfg σ.shared grounds command :=
          hs.knows _ (mem_of_getElem? hi) _ mem_cons_self
        exact absurd hl (hj.not_live hg hd)
    · exact he

theorem live_reservations_survive_iff (cfg : Config) (σ : Supervisor) (hσ : σ.passes = [])
    (xs : List Event) :
    (∀ pre e r, pre ++ [e] <+: xs → Live cfg (run (step cfg) σ pre).shared r →
      r ∉ (run (step cfg) σ (pre ++ [e])).shared.reservations.rows →
        Evicts cfg (run (step cfg) σ pre) r e ∧
          HardStopUnderway (run (step cfg) σ xs) r.parentTaskId) ↔
      Along (step cfg) (Spares cfg) σ xs := by
  rw [along_iff]
  constructor
  · intro h pre e hp
    refine (spares_iff (run_sound hσ pre) e).mp ?_
    intro r hl hn
    exact (h pre e r hp hl (by rwa [run_snoc])).1
  · intro h pre e r hp hl hn
    have hsound (ys : List Event) : Sound cfg (run (step cfg) σ ys) := run_sound hσ ys
    rw [run_snoc] at hn
    have he := (spares_iff (hsound pre) e).mpr (h pre e hp) r hl hn
    obtain ⟨post, rfl⟩ := hp
    refine ⟨he, ?_⟩
    rw [run_append]
    refine run_underway (hsound (pre ++ [e])) ?_ post
    rw [run_snoc]
    exact he.underway

def sampleConfig : Config where
  heartbeatTimeout := 30
  telemetryStaleTimeout := 20
  taskStopGracePeriod := 10
  timestamp := fun _ => 0

def sampleWait : NestedWaitReservation := ⟨"parent", "child", "worker", sampleTime⟩

def sampleSupervisor : Supervisor where
  shared.store := run Transaction.apply .empty
    [.enqueueWithDispatch (sampleJob "first" "first" .ui),
      .claim sampleTime "first" "worker", .markRunning sampleTime "first" "worker",
      .finalize sampleTime "first" "worker" .success none none,
      .enqueueWithDispatch (sampleJob "second" "parent" .ui),
      .claim sampleTime "parent" "worker", .markRunning sampleTime "parent" "worker",
      .enqueueWithDispatch (sampleJob "third" "child" .node)]
  shared.reservations := (Table.empty.insert sampleWait).getD .empty
  shared.workers := (Table.empty.insert ⟨"worker", 90, 1, .online, none, false, 1⟩).getD .empty
  shared.telemetry := (Table.empty.insert ⟨"first", "worker", 50⟩).getD .empty
  shared.clock := 100
  shared.startedAt := 0
  shared.hardStops := []
  passes := []

def sampleSteps (pass : PassKind) (n : ℕ) : List Event :=
  .start pass :: List.replicate n (.step 0 sampleTime)

theorem live_reservations_survive_sampleWait :
    Live sampleConfig (run (step sampleConfig) sampleSupervisor
        (sampleSteps .nestedWaits 4)).shared sampleWait ∧
      Evicts sampleConfig (run (step sampleConfig) sampleSupervisor
        (sampleSteps .nestedWaits 4)) sampleWait (.step 0 sampleTime) ∧
      HardStopUnderway (run (step sampleConfig) sampleSupervisor
        (sampleSteps .nestedWaits 6)) "parent" := by
  have hlive : Live sampleConfig (run (step sampleConfig) sampleSupervisor
    (sampleSteps .nestedWaits 4)).shared sampleWait := by decide
  exact ⟨hlive, (live_reservations_survive_iff sampleConfig sampleSupervisor rfl
    (sampleSteps .nestedWaits 6)).mpr (by
      refine ⟨?_, ?_, ?_, ?_, ?_, ?_, ?_, trivial⟩
      all_goals
        intro grounds command h
        cases h) (sampleSteps .nestedWaits 4) _ sampleWait
      ⟨[.step 0 sampleTime], rfl⟩ hlive (by decide)⟩

theorem orphan_telemetry_releases_live : sampleSupervisor.passes = [] ∧
      Live sampleConfig (run (step sampleConfig) sampleSupervisor
        (sampleSteps .staleExecutions 10)).shared sampleWait ∧
      (run (step sampleConfig) sampleSupervisor
        (sampleSteps .staleExecutions 10)).running (.step 0 sampleTime) =
          some (.release (.orphanTelemetry ⟨"first", "worker", 50⟩) (.hdel ["parent"])) ∧
      sampleWait ∉ (run (step sampleConfig) sampleSupervisor
        (sampleSteps .staleExecutions 11)).shared.reservations.rows := by
  decide

end Dvt.Orchestrator
