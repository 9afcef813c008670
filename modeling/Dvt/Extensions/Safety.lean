import Dvt.Extensions.Refresh

/-! Whatever the worker does, a refresh acts on an idle pool only. -/

namespace Dvt.Extensions

open Library List

section

variable {ι κ : Type} [DecidableEq κ]

def World.Quiet (world : World ι κ) (pool : ι) : Prop :=
  world.pool = some pool ∧ (world.pools pool).cache = 0

def Allowed (pool : ι) (before : List (Action κ)) (world : World ι κ) : Action κ → Prop
  | .submitReload => world.Quiet pool ∧ (world.pools pool).processes = 0 ∧
      (world.pools pool).children = [] ∧ .submitReload ∉ before
  | .terminateJob child => world.Quiet pool ∧ .shrunk child ∈ before
  | .onFailure _ => ∃ current, world.Quiet current
  | .resume => .reloaded ∈ before ∧ world.pool = some pool ∧
      ∃ child, (world.pools pool).children = [child] ∧
        readyPoolChildren (world.pools pool) = .ok [child]
  | .shrunk _ => True
  | .reloaded => True

def History.Safe (history : History ι κ) : Prop := ∀ before action world after,
  history.actions = before ++ (action, world) :: after →
    Allowed history.pool (before.map Prod.fst) world action

lemma History.Safe.add {history : History ι κ} {action : Action κ} {world : World ι κ}
    (h : history.Safe)
    (ha : Allowed history.pool (history.actions.map Prod.fst) world action) :
    (history.add action world).Safe := by
  intro before last seen after hs
  rcases eq_nil_or_concat after with rfl | ⟨init, final, rfl⟩
  · obtain ⟨rfl, hl⟩ := append_inj' hs rfl
    cases hl
    exact ha
  · rw [concat_eq_append, ← cons_append, ← append_assoc] at hs
    exact h before last seen init (append_inj' hs rfl).1

def Phase.Facts (retiring : List κ) (actions : List (Action κ)) : Phase → Prop
  | .draining => .submitReload ∉ actions
  | .waitingForChild => .submitReload ∉ actions
  | .stopping => .submitReload ∉ actions ∧
      ∃ child, retiring = [child] ∧ .shrunk child ∈ actions
  | .killing => .submitReload ∉ actions ∧
      ∃ child, retiring = [child] ∧ .shrunk child ∈ actions
  | .starting => .reloaded ∈ actions
  | .reloading => True
  | .failed => True
  | .idle => True

def At (P : Refresh ι κ → List (Action κ) → Prop) (s : State ι κ) : Prop :=
  (∀ history ∈ s.histories, history.Safe) ∧
    ∃ history rest, s.histories = history :: rest ∧ s.self.rawPool = some history.pool ∧
      P s.self (history.actions.map Prod.fst)

def Inv (s : State ι κ) : Prop :=
  (∀ history ∈ s.histories, history.Safe) ∧
    (s.self.phase ≠ .idle → At (fun self actions => self.phase.Facts self.retiringChildren actions) s)

def Weak : State ι κ → Prop := At fun _ _ => True

variable {P Q : Refresh ι κ → List (Action κ) → Prop} {s : State ι κ}

lemma At.imp (h : At P s) (hPQ : ∀ actions, P s.self actions → Q s.self actions) : At Q s := by
  obtain ⟨hs, history, rest, hh, hp, hP⟩ := h
  exact ⟨hs, history, rest, hh, hp, hPQ _ hP⟩

lemma At.weak (h : At P s) : Weak s := h.imp fun _ _ => trivial

lemma At.inv (h : At P s)
    (hP : ∀ actions, P s.self actions → s.self.phase.Facts s.self.retiringChildren actions) : Inv s :=
  ⟨h.1, fun _ => h.imp hP⟩

lemma At.update (h : At P s) {f : Refresh ι κ → Refresh ι κ}
    (hp : ∀ self, (f self).rawPool = self.rawPool)
    (hPQ : ∀ actions, P s.self actions → Q (f s.self) actions) : At Q { s with self := f s.self } := by
  obtain ⟨hs, history, rest, hh, hraw, hP⟩ := h
  exact ⟨hs, history, rest, hh, (hp s.self).trans hraw, hPQ _ hP⟩

end

variable {ι κ α β : Type} {pre : State ι κ → Prop} {post : β → State ι κ → Prop}
  {raised : Raised → State ι κ → Prop}

lemma rawPool_bind {pool : ι} {f : RawPool κ → Run ι κ β}
    (h : ∀ raw, Meets (fun s => s.world.pools pool = raw ∧ pre s) (f raw) post raised) :
    Meets pre (rawPool pool >>= f) post raised :=
  .bind (R := fun raw s => s.world.pools pool = raw ∧ pre s) (fun _ hs => ⟨rfl, hs⟩) h

lemma expired_bind {f : Bool → Run ι κ β} (h : ∀ b, Meets pre (f b) post raised) :
    Meets pre (expired >>= f) post raised :=
  .bind (R := fun _ => pre) (fun _ hs => hs) h

lemma poolId_bind {f : ι → Run ι κ β} (hn : ∀ e s, pre s → raised e s)
    (h : ∀ pool, Meets (fun s => s.world.pool = some pool ∧ pre s) (f pool) post raised) :
    Meets pre (poolId >>= f) post raised := by
  refine .bind (R := fun pool s => s.world.pool = some pool ∧ pre s) ?_ h
  refine Meets.get_bind fun t => ?_
  cases hp : t.world.pool with
  | none => exact .throw fun s hs => hn _ s hs.2
  | some pool =>
    refine .pure fun s hs => ⟨?_, hs.2⟩
    rw [hs.1, hp]

lemma meets_external {call : World ι κ → Except Raised α × World ι κ}
    (h : ∀ s world, pre s → pre { s with world }) :
    Meets pre (external call) (fun _ => pre) fun _ => pre := by
  intro s hs
  rw [external]
  split
  · exact h s _ hs
  · exact h s _ hs

section

variable [DecidableEq κ] {P Q : Refresh ι κ → List (Action κ) → Prop} {calls : Calls ι κ}
  {queueNames : List String} {pool : ι}
variable {s : State ι κ}

lemma At.world (h : At P s) (world : World ι κ) : At P { s with world } := h

lemma Inv.world (h : Inv s) (world : World ι κ) : Inv { s with world } := h

lemma meets_record (action : Action κ) {W : World ι κ → Prop}
    (ha : ∀ self world current actions, self.rawPool = some current → P self actions →
      W world → Allowed current actions world action)
    (hPQ : ∀ self actions, P self actions → Q self (actions ++ [action])) :
    Meets (fun s => At P s ∧ W s.world) (record action) (fun _ => At Q) raised := by
  refine Meets.modify fun s hs => ?_
  obtain ⟨⟨hsafe, history, rest, hh, hp, hP⟩, hW⟩ := hs
  refine ⟨?_, history.add action s.world, rest, ?_, hp, ?_⟩
  · intro other ho
    rw [hh, modifyHead_cons, mem_cons] at ho
    rcases ho with rfl | ho
    · exact (hsafe history (by rw [hh]; exact mem_cons_self ..)).add (ha _ _ _ _ hp hP hW)
    · exact hsafe other (by rw [hh]; exact mem_cons_of_mem _ ho)
  · rw [hh, modifyHead_cons]
  · rw [History.add, map_append]
    exact hPQ _ _ hP

lemma meets_update {f : Refresh ι κ → Refresh ι κ} (hp : ∀ self, (f self).rawPool = self.rawPool)
    (hPQ : ∀ self actions, P self actions → Q (f self) actions) :
    Meets (At P) (update f) (fun _ => At Q) raised :=
  Meets.modify fun _ hs => hs.update hp fun _ => hPQ _ _

variable {phase : Phase}

lemma meets_setPhase {timeout : Option ℕ}
    (hPQ : ∀ self deadline actions, P self actions → Q { self with phase, deadline } actions) :
    Meets (At P) (setPhase phase timeout) (fun _ => At Q) raised :=
  Meets.modify fun s hs => hs.update (f := fun self =>
    { self with phase, deadline := timeout.map (s.world.now + ·) }) (fun _ => rfl) fun _ => hPQ _ _ _

def Failed : State ι κ → Prop := At fun self _ => self.phase = .failed

lemma meets_fail (reason : String) :
    Meets Weak (fail calls reason) (fun _ => Failed) fun _ => Failed := by
  have he : ∀ call : World ι κ → Except Raised Unit × World ι κ,
      Meets Failed (external call) (fun _ => Failed) fun _ => Failed :=
    fun call => meets_external fun s world hs => hs.world world
  refine .bind (R := fun _ => Weak) (meets_update (fun _ => rfl) fun _ _ h => h) fun _ => ?_
  refine .bind (R := fun _ => Failed) (meets_setPhase fun _ _ _ _ => rfl) fun _ => ?_
  refine .bind (R := fun _ => Failed) (Meets.get_bind fun t => ?_) fun _ => ?_
  · cases t.self.reload with
    | none => exact .pure fun s hs => hs.2
    | some future =>
      exact (he (calls.cancel future)).strengthen fun s hs => hs.2
  · refine poolId_bind (fun _ s hs => hs) fun pool => rawPool_bind fun raw => .ite ?_ ?_
    · intro hc
      refine .bind (R := fun _ => Failed) ?_ fun _ => he _
      refine (meets_record (.onFailure reason) (W := fun world => world.Quiet pool)
        (fun _ _ _ _ _ _ hW => ⟨pool, hW⟩) fun _ _ h => h).strengthen ?_
      rintro s ⟨hraw, hp, hs⟩
      exact ⟨hs, hp, by rw [hraw, hc]⟩
    · intro _
      exact .pure fun s hs => hs.2.2

lemma inv_of_failed (h : Failed s) : Inv s := by
  refine h.inv fun actions hphase => ?_
  rw [hphase]
  trivial

lemma fail_meets (hpre : ∀ s, pre s → Weak s) (reason : String) :
    Meets pre (fail calls reason) (fun _ => Inv) fun _ => Weak :=
  (meets_fail reason).conseq hpre (fun _ _ => inv_of_failed) fun _ _ => At.weak

lemma readyChildren_bind {β : Type} {post : β → State ι κ → Prop}
    {f : List κ → Run ι κ β} (hr : ∀ e s, pre s → raised e s)
    (h : ∀ children, Meets (fun s => readyPoolChildren (s.world.pools pool) = .ok children ∧ pre s)
      (f children) post raised) : Meets pre (readyChildren pool >>= f) post raised := by
  refine .bind (R := fun children s =>
    readyPoolChildren (s.world.pools pool) = .ok children ∧ pre s) ?_ h
  refine rawPool_bind fun raw => ?_
  cases hready : readyPoolChildren raw with
  | ok children =>
    refine .pure fun s hs => ⟨?_, hs.2⟩
    rw [hs.1, hready]
  | error e => exact .throw fun s hs => hr e s hs.2

def In (pool : ι) (phase : Phase) (self : Refresh ι κ) (actions : List (Action κ)) : Prop :=
  self.rawPool = some pool ∧ self.phase = phase ∧ phase.Facts self.retiringChildren actions

variable {actions : List (Action κ)} {self : Refresh ι κ}

omit [DecidableEq κ] in
lemma In.pool_eq {current : ι}
    (h : In pool phase self actions) (hp : self.rawPool = some current) : current = pool :=
  Option.some_inj.mp (hp.symm.trans h.1)

variable {action : Action κ}

omit [DecidableEq κ] in
lemma notMem_concat {other : Action κ} (h : action ∉ actions)
    (hne : action ≠ other) : action ∉ actions ++ [other] := by
  rw [mem_append, mem_singleton]
  exact not_or.mpr ⟨h, hne⟩

omit [DecidableEq κ] in
lemma Phase.Facts.concat {retiring : List κ}
    (h : phase.Facts retiring actions) (hne : .submitReload ≠ action) :
    phase.Facts retiring (actions ++ [action]) := by
  cases phase with
  | draining | waitingForChild => exact notMem_concat h hne
  | stopping | killing =>
    obtain ⟨hsub, child, hr, hs⟩ := h
    exact ⟨notMem_concat hsub hne, child, hr, mem_append_left _ hs⟩
  | starting => exact mem_append_left _ h
  | reloading | failed | idle => trivial

omit [DecidableEq κ] in
lemma In.concat (h : In pool phase self actions) (hne : .submitReload ≠ action) :
    In pool phase self (actions ++ [action]) := ⟨h.1, h.2.1, h.2.2.concat hne⟩

def Idle (pool : ι) (phase : Phase) (s : State ι κ) : Prop :=
  At (In pool phase) s ∧ s.world.Quiet pool

lemma Idle.weak (h : Idle pool phase s) : Weak s := At.weak h.1

variable {f : Bool → Run ι κ β}

lemma onlyChildReady_bind (hr : ∀ e s, pre s → raised e s)
    (h : ∀ ready, Meets (fun s => (ready = true → (s.world.pools pool).children.length = 1) ∧ pre s)
      (f ready) post raised) : Meets pre (onlyChildReady pool >>= f) post raised := by
  refine .bind ?_ h
  refine rawPool_bind fun raw => .ite (fun _ => .pure fun s hs => ⟨nofun, hs.2⟩) fun hlen => ?_
  refine readyChildren_bind (fun e s hs => hr e s hs.2) fun ready => ?_
  refine .pure fun s hs => ⟨fun _ => ?_, hs.2.2⟩
  rw [hs.2.1]
  exact not_not.mp hlen

lemma readyPoolChildren_singleton {raw : RawPool κ} {child : κ} {ready : List κ}
    (hchild : raw.children = [child]) (hready : readyPoolChildren raw = .ok ready)
    (hlen : ready.length = 1) : ready = [child] := by
  rw [readyPoolChildren, hchild] at hready
  cases ha : raw.isAlive child with
  | error e =>
    simp only [List.filterM, List.filterAuxM, ha] at hready
    cases hready
  | ok alive =>
    simp only [List.filterM, List.filterAuxM, ha] at hready
    obtain rfl : (bif alive && decide (child ∈ raw.up) then [child] else []).reverse = ready :=
      Except.ok.inj hready
    cases hk : alive && decide (child ∈ raw.up) with
    | true => rfl
    | false =>
      rw [hk] at hlen
      cases hlen

lemma replacementReady_bind (hr : ∀ e s, pre s → raised e s)
    (h : ∀ ready, Meets (fun s => (ready = true → ∃ child, (s.world.pools pool).children = [child] ∧
      readyPoolChildren (s.world.pools pool) = .ok [child]) ∧ pre s) (f ready) post raised) :
    Meets pre (replacementReady pool >>= f) post raised := by
  refine .bind ?_ h
  refine rawPool_bind fun raw => .ite (fun _ => .pure fun s hs => ⟨nofun, hs.2⟩) fun hlen => ?_
  refine readyChildren_bind (fun e s hs => hr e s hs.2) fun ready => ?_
  refine .pure fun s hs => ⟨fun hone => ?_, hs.2.2⟩
  obtain ⟨child, hchild⟩ := length_eq_one_iff.mp (not_not.mp (not_or.mp hlen).2)
  rw [hs.2.1]
  refine ⟨child, hchild, ?_⟩
  have hready := hs.1
  rw [hs.2.1] at hready
  rw [hready, readyPoolChildren_singleton hchild hready (of_decide_eq_true hone)]

lemma meets_tryShrink (child : κ) :
    Meets (fun s => (s.world.pools pool).children = [child] ∧ Idle pool .waitingForChild s)
      (tryShrink calls)
      (fun shrunk => At (fun self actions => In pool .waitingForChild self actions ∧
        (shrunk = true → .shrunk child ∈ actions)))
      fun _ => Weak := by
  refine .tryCatch (E := fun _ => At (In pool .waitingForChild)) ?_ ?_
  · refine .bind (R := fun selected s => selected = child ∧
      At (In pool .waitingForChild) (s : State ι κ)) ?_ ?_
    · rintro s ⟨hchildren, hs, hp, -⟩
      rw [external]
      split
      · next selected world hcall =>
        have hmem := calls.shrink_mem s.world world pool selected hp hcall
        rw [hchildren, mem_singleton] at hmem
        exact ⟨hmem, hs.world world⟩
      · exact hs.world _
    · intro selected
      refine .bind (R := fun _ => At (fun self actions => In pool .waitingForChild self actions ∧
        .shrunk child ∈ actions)) ?_ fun _ =>
        .pure fun s hs => hs.imp fun _ h => ⟨h.1, fun _ => h.2⟩
      by_cases hsel : selected = child
      · subst hsel
        refine (meets_record (.shrunk selected) (W := fun _ => True) (fun _ _ _ _ _ _ _ => trivial)
          (fun self actions h => ⟨h.concat (by simp), by simp⟩)).strengthen fun s hs => ⟨hs.2, trivial⟩
      · exact fun s hs => absurd hs.1 hsel
  · intro raised
    refine .ite (fun _ => .pure fun s hs => hs.imp fun _ h => ⟨h, nofun⟩) fun _ =>
      .throw fun s hs => hs.weak

lemma inv_of_in (h : At (In pool phase) s) : Inv s := by
  refine h.inv fun actions hin => ?_
  rw [hin.2.1]
  exact hin.2.2

lemma meets_expired (hpre : ∀ s, pre s → At (In pool phase) s) (reason : String) : Meets pre (do
      let expired ← expired
      if expired then fail calls reason) (fun _ => Inv) fun _ => Weak :=
  expired_bind fun _ => .ite (fun _ => fail_meets (fun s hs => (hpre s hs).weak) reason)
    fun _ => .pure fun s hs => inv_of_in (hpre s hs)

lemma meets_waitForChild :
    Meets (Idle pool .waitingForChild) (waitForChild calls pool) (fun _ => Inv) fun _ => Weak := by
  refine rawPool_bind fun raw => .ite (fun _ => fail_meets (fun s hs => hs.2.weak) _) fun _ => ?_
  refine onlyChildReady_bind (fun _ s hs => hs.2.weak) fun ready => .ite (fun hready => ?_)
    fun _ => meets_expired (fun s hs => hs.2.2.1) _
  by_cases hone : raw.children.length = 1
  · obtain ⟨child, hchild⟩ := length_eq_one_iff.mp hone
    refine .bind ((meets_tryShrink child).strengthen fun s hs => ⟨?_, hs.2.2⟩) fun shrunk => .ite
      (fun hshr => ?_) fun _ =>
        meets_expired (fun s hs => hs.imp fun _ h => h.1) _
    · rw [hs.2.1, hchild]
    · refine .bind (meets_update (fun _ => rfl) (Q := fun self actions => self.rawPool = some pool ∧
        Phase.stopping.Facts self.retiringChildren actions) fun self actions h =>
          ⟨h.1.1, h.1.2.2, child, hchild, h.2 hshr⟩)
        fun _ => (meets_setPhase (Q := In pool .stopping) fun self deadline actions h =>
          ⟨h.1, rfl, h.2⟩).weaken fun _ _ => inv_of_in
  · refine fun s hs => absurd (hs.1 hready) ?_
    rw [hs.2.1]
    exact hone

lemma meets_external_in {α : Type} (call : World ι κ → Except Raised α × World ι κ) :
    Meets (At (In pool phase)) (external call) (fun _ => At (In pool phase)) fun _ => Weak :=
  (meets_external fun _ world hs => hs.world world).mono_raised fun _ _ => At.weak

variable {child : κ}

lemma meets_terminateChild :
    Meets (fun s => At (fun self actions => In pool phase self actions ∧ .shrunk child ∈ actions) s ∧
        s.world.Quiet pool)
      (terminateChild calls pool child) (fun _ => At (In pool phase)) fun _ => Weak := by
  refine rawPool_bind fun raw => ?_
  cases raw.isAlive child with
  | error e => exact .throw fun s hs => hs.2.1.weak
  | ok alive =>
    refine .ite (fun _ => ?_) fun _ => .pure fun s hs => hs.2.1.imp fun _ h => h.1
    refine .bind ?_ fun _ => meets_external_in (calls.terminateJob child)
    refine (meets_record (.terminateJob child) (W := fun world => world.Quiet pool)
      (fun self world current actions hp h hW => ?_) fun self actions h =>
        h.1.concat (by simp)).strengthen fun s hs => hs.2
    rw [h.1.pool_eq hp]
    exact ⟨hW, h.2⟩

omit [DecidableEq κ] in
lemma eq_singleton {children : List κ} (hn : children.Nodup) (hne : children ≠ [])
    (hsub : ∀ other ∈ children, other ∈ [child]) : children = [child] := by
  cases children with
  | nil => exact absurd rfl hne
  | cons first rest =>
    obtain rfl := mem_singleton.mp (hsub first (mem_cons_self ..))
    cases rest with
    | nil => rfl
    | cons second rest =>
      obtain rfl := mem_singleton.mp (hsub second (by simp))
      simp at hn

variable {raw : RawPool κ}

section

variable (hphase : phase = .stopping ∨ phase = .killing)

include hphase

lemma meets_terminate (hchildren : raw.children ≠ []) {t : State ι κ}
    (hsub : ∀ child ∈ raw.children, child ∈ t.self.retiringChildren) :
    Meets (fun s => s = t ∧ Idle pool phase s) (raw.children.forM (terminateChild calls pool))
      (fun _ => At (In pool phase)) fun _ => Weak := by
  rintro s ⟨rfl, hs, hq⟩
  have hf : ∃ child, s.self.retiringChildren = [child] ∧ At (fun self actions =>
      In pool phase self actions ∧ .shrunk child ∈ actions) s := by
    obtain ⟨hsafe, history, rest, hh, hp, hin⟩ := hs
    have hr : ∃ child, s.self.retiringChildren = [child] ∧
        .shrunk child ∈ history.actions.map Prod.fst := by
      rcases hphase with rfl | rfl
      · exact hin.2.2.2
      · exact hin.2.2.2
    obtain ⟨child, hr, hshr⟩ := hr
    exact ⟨child, hr, hsafe, history, rest, hh, hp, hin, hshr⟩
  obtain ⟨child, hr, hat⟩ := hf
  rw [hr] at hsub
  rw [eq_singleton raw.nodup hchildren hsub]
  have hrun : Meets _ (terminateChild calls pool child >>= fun _ => List.forM [] (terminateChild calls pool))
      (fun _ => At (In pool phase)) fun _ => Weak :=
    .bind meets_terminateChild fun _ => .pure fun _ h => h
  exact hrun s ⟨hat, hq⟩

lemma meets_submit (hp : raw.processes = 0) (hchildren : raw.children = []) :
    Meets (fun s => s.world.pools pool = raw ∧ Idle pool phase s) (do
        record .submitReload
        let future ← external calls.submitReload
        update fun self => { self with reload := some future }
        setPhase .reloading (some reloadTimeout)) (fun _ => Inv) fun _ => Weak := by
  refine .bind (R := fun _ => Weak) ?_ fun _ =>
    .bind (meets_external fun s world hs => hs.world world) fun future =>
      .bind (R := fun _ => Weak) (meets_update (fun _ => rfl) fun _ _ h => h) fun _ => ?_
  · refine (meets_record .submitReload (W := fun world => world.pools pool = raw ∧ world.Quiet pool)
      (fun self world current actions hpool h hW => ?_) fun _ _ _ => trivial).strengthen fun s hs =>
        ⟨hs.2.1, hs.1, hs.2.2⟩
    rw [h.pool_eq hpool]
    refine ⟨hW.2, by rw [hW.1, hp], by rw [hW.1, hchildren], ?_⟩
    rcases hphase with rfl | rfl
    · exact h.2.2.1
    · exact h.2.2.1
  · refine (meets_setPhase (Q := fun self _ => self.phase = .reloading) fun _ _ _ _ => rfl).weaken
      (fun _ s hs => hs.inv fun actions hphase => ?_)
    rw [hphase]
    trivial

lemma meets_stopChild :
    Meets (Idle pool phase) (stopChild calls pool) (fun _ => Inv) fun _ => Weak := by
  refine rawPool_bind fun raw => .ite (fun _ => fail_meets (fun s hs => hs.2.weak) _)
    fun hp => .ite (fun hchildren => ?_) fun hchildren =>
      meets_submit hphase (not_not.mp hp) (not_not.mp hchildren)
  refine expired_bind fun _ => .ite (fun _ => Meets.get_bind fun t => ?_) fun _ =>
    .pure fun s hs => inv_of_in hs.2.1
  refine .ite (fun _ => fail_meets (fun s hs => hs.2.2.weak) _) fun _ =>
    .ite (fun _ => fail_meets (fun s hs => hs.2.2.weak) _) fun hsub => ?_
  refine .bind ((meets_terminate hphase hchildren (t := t) ?_).strengthen fun s hs => ⟨hs.1, hs.2.2⟩) fun _ => ?_
  · intro child hchild
    simp only [any_eq_true, decide_eq_true_eq, not_exists, not_and, not_not] at hsub
    exact hsub child hchild
  · refine (meets_setPhase (Q := In pool .killing) fun self deadline actions h =>
      ⟨h.1, rfl, ?_⟩).weaken (fun _ _ => inv_of_in)
    rcases hphase with rfl | rfl
    · exact h.2.2
    · exact h.2.2

end

def Reloaded (pool : ι) (self : Refresh ι κ) (actions : List (Action κ)) : Prop :=
  self.rawPool = some pool ∧ .reloaded ∈ actions

lemma meets_reloadRuntime :
    Meets (Idle pool .reloading) (reloadRuntime calls pool) (fun _ => Inv) fun _ => Weak := by
  refine Meets.get_bind fun t => ?_
  cases t.self.reload with
  | none => exact .throw fun s hs => hs.2.weak
  | some future =>
    refine Meets.get_bind fun _ => .ite (fun _ => ?_) fun _ => meets_expired (fun s hs => hs.2.2.1) _
    refine .bind ((meets_external_in (calls.result future)).strengthen fun s hs => hs.2.2.1) fun changed => ?_
    have hr : Meets (At (In pool .reloading)) (record (.reloaded : Action κ))
        (fun _ => At (Reloaded pool)) fun _ => Weak :=
      (meets_record .reloaded (W := fun _ => True) (Q := Reloaded pool) (fun _ _ _ _ _ _ _ => trivial)
        fun self actions h => ⟨h.1, by simp⟩).strengthen fun s hs => ⟨hs, trivial⟩
    have he : ∀ call : World ι κ → Except Raised Unit × World ι κ,
        Meets (At (Reloaded pool)) (external call) (fun _ => At (Reloaded pool)) fun _ => Weak := fun call =>
      (meets_external fun _ world hs => hs.world world).mono_raised fun _ _ => At.weak
    refine .bind hr fun _ => .bind (.ite (fun _ => he _) fun _ =>
      .pure fun _ h => h) fun _ => .bind (meets_update (fun _ => rfl) fun _ _ h => h)
        fun _ => rawPool_bind fun raw => .ite (fun _ => fail_meets (fun s hs => hs.2.weak) _)
          fun _ => .bind ((he calls.grow).strengthen fun s hs => hs.2) fun _ => ?_
    exact (meets_setPhase (Q := In pool .starting) fun self deadline actions h =>
      ⟨h.1, rfl, h.2⟩).weaken fun _ _ => inv_of_in

lemma meets_startChild :
    Meets (Idle pool .starting) (startChild calls queueNames pool) (fun _ => Inv) fun _ => Weak := by
  refine replacementReady_bind (fun _ s hs => hs.weak) fun ready => .ite (fun hready => ?_)
    fun _ => meets_expired (fun s hs => hs.2.1) _
  have hr : Meets (fun s : State ι κ => (ready = true → ∃ child, (s.world.pools pool).children = [child] ∧
      readyPoolChildren (s.world.pools pool) = .ok [child]) ∧ Idle pool .starting s) (record .resume)
      (fun _ => At (In pool .starting)) fun _ => Weak := by
    refine (meets_record .resume (W := fun world => world.pool = some pool ∧
      ∃ child, (world.pools pool).children = [child] ∧ readyPoolChildren (world.pools pool) = .ok [child])
      (fun self world current actions hp h hW => ?_) fun self actions h => h.concat
        (by simp)).strengthen fun s hs => ⟨hs.2.1, hs.2.2.1, hs.1 hready⟩
    rw [h.pool_eq hp]
    exact ⟨h.2.2, hW⟩
  have hq : Meets (At (In pool .starting)) (queueNames.forM fun name => do
      external (calls.selectAdd name)
      external (calls.addTaskQueue name)) (fun _ => At (In pool .starting)) fun _ => Weak :=
    Meets.forM fun name _ => .bind (meets_external_in _) fun _ => meets_external_in _
  refine .bind (.bind hr fun _ => hq) fun _ =>
    .bind (R := fun _ => Weak) (meets_update (fun _ => rfl) fun _ _ _ => trivial) fun _ => ?_
  refine (meets_setPhase (Q := fun self _ => self.phase = .idle) fun _ _ _ _ => rfl).weaken
    fun _ s hs => hs.inv fun actions hphase => ?_
  rw [hphase]
  trivial

lemma meets_advancePhase :
    Meets (fun s => ∃ phase, Idle pool phase s) (advancePhase calls queueNames pool) (fun _ => Inv)
      fun _ => Weak := by
  refine Meets.get_bind fun t => ?_
  have hphase : ∀ s phase, s = t ∧ (∃ phase, Idle pool phase s) → t.self.phase = phase →
      Idle pool phase s := by
    rintro s phase ⟨rfl, other, hs⟩ rfl
    obtain ⟨_, history, _, _, _, hin⟩ := hs.1
    exact hin.2.1 ▸ hs
  cases hc : t.self.phase with
  | waitingForChild =>
    exact meets_waitForChild.strengthen fun s hs => hphase s _ hs hc
  | stopping =>
    exact (meets_stopChild (.inl rfl)).strengthen fun s hs => hphase s _ hs hc
  | killing =>
    exact (meets_stopChild (.inr rfl)).strengthen fun s hs => hphase s _ hs hc
  | reloading =>
    exact meets_reloadRuntime.strengthen fun s hs => hphase s _ hs hc
  | starting =>
    exact meets_startChild.strengthen fun s hs => hphase s _ hs hc
  | idle | draining | failed => exact .throw fun s hs => (hphase s _ hs hc).weak

lemma meets_leaveDraining : Meets (fun s => At (fun self actions => self.rawPool = some pool ∧
      self.phase.Facts self.retiringChildren actions) s ∧ s.world.Quiet pool) leaveDraining
    (fun _ s => ∃ phase, Idle pool phase (s : State ι κ)) fun _ => Weak := by
  refine Meets.get_bind fun t => .ite (fun hd => ?_) fun _ => .pure fun s hs =>
    ⟨s.self.phase, hs.2.1.imp fun _ h => ⟨h.1, rfl, h.2⟩, hs.2.2⟩
  refine Meets.modify fun s hs => ⟨.waitingForChild, ?_, hs.2.2⟩
  refine hs.2.1.update (f := fun self => { self with phase := _, deadline := _ }) (fun _ => rfl)
    fun actions h => ⟨h.1, rfl, ?_⟩
  rw [hs.1, hd] at h
  exact h.2

lemma meets_advance [DecidableEq ι] :
    Meets (At fun self actions => self.phase ≠ .idle ∧ self.phase.Facts self.retiringChildren actions)
      (advance calls queueNames) (fun _ => Inv) fun _ => Weak := by
  refine poolId_bind (fun _ s hs => hs.weak) fun pool => Meets.get_bind fun t =>
    .ite (fun _ => fail_meets (fun s hs => hs.2.2.weak) _) fun hp => rawPool_bind fun raw => ?_
  have hsame : t.self.rawPool = some pool := (not_not.mp hp).symm
  refine .ite (fun _ => ?_) fun hcac => Meets.get_bind fun u => .ite (fun hf => ?_) fun _ => ?_
  · refine Meets.modify fun s hs => (hs.2.2.2.update (Q := fun self actions =>
      self.phase.Facts self.retiringChildren actions) (f := fun self => { self with deadline := _ })
      (fun _ => rfl) fun actions h => h.2).inv fun _ h => h
  · refine Meets.get_bind fun v => .bind (R := fun _ => Failed) ?_ fun _ =>
      (meets_external fun _ world hs => hs.world world).conseq (fun _ h => h) (fun _ _ => inv_of_failed)
        fun _ _ => At.weak
    refine (meets_record (.onFailure _) (W := fun world => world.Quiet pool)
      (fun _ _ _ _ _ _ hW => ⟨pool, hW⟩) fun _ _ h => h).strengthen fun s hs => ?_
    obtain ⟨-, rfl, hraw, -, hc, hs⟩ := hs
    refine ⟨hs.imp fun _ _ => hf, hc, ?_⟩
    rw [hraw]
    exact not_not.mp hcac
  · refine .bind (meets_leaveDraining.strengthen fun s hs => ?_) fun _ => meets_advancePhase
    obtain ⟨-, hraw, rfl, hc, hs⟩ := hs
    refine ⟨hs.imp fun _ h => ⟨hsame, h.2⟩, hc, ?_⟩
    rw [hraw]
    exact not_not.mp hcac

lemma inv_callAfter (call : World ι κ → Except Raised Unit × World ι κ) :
    Meets Inv (external call) (fun _ => Inv) fun _ => Inv :=
  meets_external fun _ world hs => hs.world world

lemma meets_tick [DecidableEq ι] :
    Meets Inv (tick calls queueNames) (fun _ => Inv) fun _ => Inv := by
  refine Meets.get_bind fun t => .ite (fun hphase => ?_) fun _ => .pure fun s hs => hs.2
  refine .bind (R := fun _ => Inv) ?_ fun _ => Meets.get_bind fun _ =>
    .ite (fun _ => (inv_callAfter _).strengthen fun s hs => hs.2) fun _ => .pure fun s hs => hs.2
  refine .tryCatch (E := fun _ => Weak) (meets_advance.strengthen ?_)
    fun raised => Meets.get_bind fun u => ?_
  · rintro s ⟨rfl, hs⟩
    exact (hs.2 hphase).imp fun _ h => ⟨hphase, h⟩
  · exact (meets_fail _).conseq (fun s hs => hs.2) (fun _ _ => inv_of_failed) fun _ _ => inv_of_failed

lemma meets_request : Meets Inv (request calls queueNames) (fun _ => Inv) fun _ => Inv := by
  refine Meets.get_bind fun t => .ite (fun _ => .pure fun s hs => hs.2) fun _ => ?_
  refine poolId_bind (fun _ s hs => hs.2) fun pool => ?_
  refine .bind (R := fun _ s => (∀ history ∈ s.histories, History.Safe (history : History ι κ)) ∧
    s.self.rawPool = some pool) (Meets.modify fun s hs => ⟨hs.2.2.1, rfl⟩) fun _ => ?_
  refine .bind (R := fun _ => At (fun self actions => self.rawPool = some pool ∧ actions = []))
    (Meets.modify fun s hs => ?_) fun _ => ?_
  · refine ⟨fun history hh => ?_, ⟨pool, []⟩, s.histories, rfl, hs.2, hs.2, rfl⟩
    rcases mem_cons.mp hh with rfl | hold
    · intro before action world after hspl
      simp at hspl
    · exact hs.1 history hold
  refine .bind (meets_setPhase (Q := In pool .draining) fun self deadline actions h =>
    ⟨h.1, rfl, ?_⟩) fun _ => .bind (R := fun _ => Inv) ?_ fun _ =>
      .bind (inv_callAfter _) fun _ => .pure fun _ h => h
  · rw [h.2]
    exact not_mem_nil
  · have hc : Meets (At (In pool .draining)) (queueNames.forM fun name =>
        external (calls.cancelTaskQueue name)) (fun _ => At (In pool .draining)) fun _ => Weak :=
      Meets.forM fun name _ => meets_external_in _
    refine .tryCatch (hc.weaken fun _ _ => inv_of_in) fun raised => .bind (R := fun _ => Weak)
        (meets_update (fun _ => rfl) fun _ _ h => h) fun _ => ?_
    exact (meets_setPhase (Q := fun self _ => self.phase = .failed) fun _ _ _ _ => rfl).weaken
      fun _ _ => inv_of_failed

end

section

variable [DecidableEq ι] [DecidableEq κ]

lemma Inv.step {queueNames : List String} {s : State ι κ} (h : Inv s) (step : Step ι κ) :
    Inv (step.run queueNames s) := by
  rw [Step.run]
  cases step.op with
  | request => exact meets_request.endState (h.world step.world)
  | tick => exact meets_tick.endState (h.world step.world)

theorem histories_safe (queueNames : List String) (world : World ι κ) (steps : List (Step ι κ)) :
    ∀ history ∈ (steps.foldl (Step.run queueNames) { world }).histories, history.Safe := by
  have hinv : ∀ (steps : List (Step ι κ)) (s : State ι κ), Inv s →
      Inv (steps.foldl (Step.run queueNames) s) := by
    intro steps
    induction steps with
    | nil => exact fun s hs => hs
    | cons step steps ih => exact fun s hs => ih _ (hs.step step)
  refine (hinv steps { world } ⟨?_, ?_⟩).1
  · intro history hhistory
    cases hhistory
  · exact fun hphase => absurd rfl hphase

def sampleWorld (child : Option ℕ) : World Unit ℕ where
  pool := some ()
  pools _ := ⟨child.elim 0 fun _ => 1, child.toList, by cases child <;> simp, child.toList,
    fun _ => .ok true, 0⟩
  done _ := true
  now := 0

def sampleCalls : Calls Unit ℕ where
  cancelTaskQueue _ world := (.ok (), world)
  selectAdd _ world := (.ok (), world)
  addTaskQueue _ world := (.ok (), world)
  callAfter world := (.ok (), world)
  shrink world :=
    match (world.pools ()).children with
    | child :: _ => (.ok child, sampleWorld none)
    | [] => (.error ⟨"ValueError", true⟩, world)
  shrink_mem := by
    intro world world' pool child _ hshrink
    split at hshrink
    · next first rest hchildren =>
      cases hshrink
      rw [hchildren]
      exact mem_cons_self ..
    · cases hshrink
  grow _ := (.ok (), sampleWorld (some 2))
  terminateJob _ world := (.ok (), world)
  submitReload world := (.ok 0, world)
  cancel _ world := (.ok (), world)
  result _ world := (.ok true, world)
  onRefreshed world := (.ok (), world)
  onFailure _ world := (.ok (), world)

def sampleSteps : List (Step Unit ℕ) :=
  [⟨.request, sampleWorld (some 1), sampleCalls⟩, ⟨.tick, sampleWorld (some 1), sampleCalls⟩,
    ⟨.tick, sampleWorld none, sampleCalls⟩, ⟨.tick, sampleWorld none, sampleCalls⟩,
    ⟨.tick, sampleWorld (some 2), sampleCalls⟩]

theorem histories_safe_sampleSteps :
    ((sampleSteps.foldl (Step.run ["runs"]) { world := sampleWorld none }).histories.map
      fun history => history.actions.map Prod.fst) = [[.shrunk 1, .submitReload, .reloaded, .resume]] ∧
    ∀ history ∈ (sampleSteps.foldl (Step.run ["runs"]) { world := sampleWorld none }).histories,
      history.Safe :=
  ⟨by decide +kernel, histories_safe ["runs"] (sampleWorld none) sampleSteps⟩

end

end Dvt.Extensions
