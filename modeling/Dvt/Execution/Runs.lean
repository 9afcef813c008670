import Dvt.Execution.Plan

/-! Whole runs: what both loops preserve holds when they end, are left or raise. -/

namespace Dvt.Execution

open Library Pipelines List Processor

variable {α τ : Type}

variable {P : Processor α τ} {s₀ s : State α} {order done rest : List String} {n : String}

structure Visited (P : Processor α τ) (s₀ : State α) (done : List String) (s : State α) : Prop where
  consistent : Consistent P s
  grows : Grows P s₀ s
  settled : ∀ m ∈ done, P.Settled s m

lemma Visited.ready (h : Visited P s₀ done s) (hh : P.Heeds s₀ order)
    (hs : order = done ++ n :: rest) : P.Ready s n := by
  intro data hdata m hm
  by_cases hkey : m ∈ P.task.pipeline.keys
  · rcases hh done n rest hs m ⟨hkey, (mem_gatherParentIds hdata).mp hm⟩ with hd | hc
    · exact h.settled m hd
    · exact .inl (h.grows.completed hc)
  · exact .inr (.inr (.inl hkey))

structure Turn (P : Processor α τ) (order done : List String) (s : State α) (n : String) : Prop where
  consistent : Consistent P s
  ready : P.Ready s n
  member : n ∈ order
  fresh : n ∉ done

lemma Visited.turn (h : Visited P s₀ done s) (hh : P.Heeds s₀ order) (hnod : order.Nodup)
    (hs : order = done ++ n :: rest) : Turn P order done s n := by
  refine ⟨h.consistent, h.ready hh hs, hs ▸ mem_append_right _ mem_cons_self, fun hn => ?_⟩
  rw [hs] at hnod
  exact disjoint_of_nodup_append hnod hn mem_cons_self

lemma visits_rule {β : Type} (body : State α × β → String → (State α × β) × Control Raised)
    (visit : String → Visit α) (J : List String → State α × β → Prop)
    (Q : State α × β → Control Raised → Prop) (b : β) (hs₀ : Consistent P s₀)
    (hh : P.Heeds s₀ order) (hn : order.Nodup)
    (hb : ∀ c n c', body c n = (c', .next) → ∃ r, NodeStep P (visit n) c.1 n c'.1 (.ok r) ∧
      r.stopRequested = false ∧ r.shouldBreak = false)
    (hi : J [] (s₀, b))
    (hnext : ∀ done n c c', Turn P order done c.1 n → J done c → body c n = (c', .next) →
      J (done ++ [n]) c')
    (hl : ∀ done n c c' control, Turn P order done c.1 n → J done c →
      body c n = (c', control) → control ≠ .next → Q c' control) :
    (loop body order (s₀, b)).2 = .next ∧ Visited P s₀ order (loop body order (s₀, b)).1.1 ∧
        J order (loop body order (s₀, b)).1 ∨
      (loop body order (s₀, b)).2 ≠ .next ∧
        Q (loop body order (s₀, b)).1 (loop body order (s₀, b)).2 := by
  refine loop_rule_from (I := fun done c => Visited P s₀ done c.1 ∧ J done c) (nil_append order).symm
    ⟨⟨hs₀, Grows.refl s₀, by simp⟩, hi⟩ ?_ ?_
  · rintro done n rest c c' hspl ⟨hv, hJ⟩ heq
    have ht := hv.turn hh hn hspl
    refine ⟨?_, hnext done n c c' ht hJ heq⟩
    obtain ⟨r, hstep, hstop, hbreak⟩ := hb c n c' heq
    obtain ⟨hc, hset⟩ := hstep.consistent hv.consistent ht.ready
    refine ⟨hc, hv.grows.trans hstep.grows, ?_⟩
    intro m hm
    rcases mem_append.mp hm with hm | hm
    · exact (hv.settled m hm).mono hstep.grows
    · rw [mem_singleton.mp hm]
      exact hset hstop hbreak
  · rintro done n rest c c' control hspl ⟨hv, hJ⟩ heq hne
    exact hl done n c c' control (hv.turn hh hn hspl) hJ heq hne

variable {W : World α}

inductive PrepassStep (P : Processor α τ) (W : World α) (c : State α × NodeResult) (n : String) :
    State α × NodeResult → Control Raised → Prop
  | raised {s' : State α} {raised : Raised}
      (hstep : NodeStep P (W.visit .prepass n) c.1 n s' (.error raised)) :
      PrepassStep P W c n (s', c.2) (.raise raised)
  | left {s' : State α} {r : NodeResult} (hstep : NodeStep P (W.visit .prepass n) c.1 n s' (.ok r))
      (hends : r.stopRequested = true ∨ r.shouldBreak = true) :
      PrepassStep P W c n (s', { r with errorMessage := c.2.errorMessage.or r.errorMessage }) .leave
  | next {s' : State α} {r : NodeResult} (hstep : NodeStep P (W.visit .prepass n) c.1 n s' (.ok r))
      (hstop : r.stopRequested = false) (hbreak : r.shouldBreak = false) :
      PrepassStep P W c n (s', { errorMessage := c.2.errorMessage.or r.errorMessage }) .next

variable {control : Control Raised}

lemma prepassStep_of_eq {c c' : State α × NodeResult}
    (h : P.prepassStep W c n = (c', control)) : PrepassStep P W c n c' control := by
  rw [prepassStep] at h
  split at h
  · next s' raised heq =>
    cases h
    exact .raised (nodeStep_of_eq _ _ heq)
  · next s' r heq =>
    have hstep := nodeStep_of_eq _ _ heq
    split at h
    · next hends =>
      cases h
      exact .left hstep hends
    · next hends =>
      cases h
      rw [not_or, Bool.not_eq_true, Bool.not_eq_true] at hends
      exact .next hstep hends.1 hends.2

inductive MainStep (P : Processor α τ) (W : World α) (c : State α × Flags) (n : String) :
    State α × Flags → Control Raised → Prop
  | stopped : MainStep P W c n (c.1, { c.2 with stopped := true }) .leave
  | raised {s' : State α} {raised : Raised}
      (hstep : NodeStep P (W.visit .main n) c.1 n s' (.error raised)) :
      MainStep P W c n (s', c.2) (.raise raised)
  | left {s' : State α} {r : NodeResult} (hstep : NodeStep P (W.visit .main n) c.1 n s' (.ok r))
      (hends : r.stopRequested = true ∨ r.shouldBreak = true) :
      MainStep P W c n (s', c.2.note r) .leave
  | next {s' : State α} {r : NodeResult} (hstep : NodeStep P (W.visit .main n) c.1 n s' (.ok r))
      (hstop : r.stopRequested = false) (hbreak : r.shouldBreak = false) :
      MainStep P W c n (s', c.2.note r) .next

lemma mainStep_of_eq {c c' : State α × Flags}
    (h : P.mainStep W c n = (c', control)) : MainStep P W c n c' control := by
  rw [mainStep] at h
  split at h
  · cases h
    exact .stopped
  · split at h
    · next s' raised heq =>
      cases h
      exact .raised (nodeStep_of_eq _ _ heq)
    · next s' r heq =>
      have hstep := nodeStep_of_eq _ _ heq
      split at h
      · next hends =>
        cases h
        exact .left hstep hends
      · next hends =>
        cases h
        rw [not_or, Bool.not_eq_true, Bool.not_eq_true] at hends
        exact .next hstep hends.1 hends.2

section

variable (P : Processor α τ) (W : World α)

def Processor.prepassOrder (s₀ : State α) : List String :=
  match P.prepareMetadataVariablePrepassOrder (P.prepareCacheFrontier W s₀).1 with
  | .ok order => order
  | .error _ => []

/-- An invariant of the prepass and its first error, one of the main loop and its flags, and what they
give for the outcome. -/
structure RunRule (s₀ : State α) (J₁ : List String → State α → Option String → Prop)
    (J₂ : List String → State α → Flags → Prop) (Q : State α → Except Raised Flags → Prop) :
    Prop where
  frontier : ∀ ids s raised, ids.Nodup → Restores s₀ ids s → Q s (.error raised)
  plan : ∀ ids s, ids.Nodup → Restores s₀ ids s → Planned P s → J₁ [] s none
  unordered : ∀ s raised, J₁ [] s none → Q s (.error raised)
  prepassRaised : ∀ done n s first s' raised, Turn P (P.prepassOrder W s₀) done s n →
    J₁ done s first → NodeStep P (W.visit .prepass n) s n s' (.error raised) → Q s' (.error raised)
  prepassLeft : ∀ done n s first s' r, Turn P (P.prepassOrder W s₀) done s n → J₁ done s first →
    NodeStep P (W.visit .prepass n) s n s' (.ok r) →
    r.stopRequested = true ∨ r.shouldBreak = true →
    Q s' (.ok (({} : Flags).note { r with errorMessage := first.or r.errorMessage }))
  prepassNext : ∀ done n s first s' r, Turn P (P.prepassOrder W s₀) done s n → J₁ done s first →
    NodeStep P (W.visit .prepass n) s n s' (.ok r) → r.stopRequested = false →
    r.shouldBreak = false → J₁ (done ++ [n]) s' (first.or r.errorMessage)
  turn : ∀ done s first, J₁ done s first → J₂ [] s (({} : Flags).note { errorMessage := first })
  stopped : ∀ done s flags, J₂ done s flags → Q s (.ok { flags with stopped := true })
  mainRaised : ∀ order done n s flags s' raised, Turn P order done s n → J₂ done s flags →
    NodeStep P (W.visit .main n) s n s' (.error raised) → Q s' (.error raised)
  mainLeft : ∀ order done n s flags s' r, Turn P order done s n → J₂ done s flags →
    NodeStep P (W.visit .main n) s n s' (.ok r) → r.stopRequested = true ∨ r.shouldBreak = true →
    Q s' (.ok (flags.note r))
  mainNext : ∀ order done n s flags s' r, Turn P order done s n → J₂ done s flags →
    NodeStep P (W.visit .main n) s n s' (.ok r) → r.stopRequested = false →
    r.shouldBreak = false → J₂ (done ++ [n]) s' (flags.note r)
  finish : ∀ s flags, Consistent P s → s.effectiveExecutionOrder ⊆ P.task.pipeline.keys →
    (∀ n ∈ s.effectiveExecutionOrder, P.Settled s n) →
    J₂ s.effectiveExecutionOrder s flags → Q s (.ok flags)

variable {P W} {s' : State α} {J₁ : List String → State α → Option String → Prop}
  {J₂ : List String → State α → Flags → Prop} {Q : State α → Except Raised Flags → Prop}

lemma RunRule.prepass {result : Except Raised NodeResult} (h : RunRule P W s₀ J₁ J₂ Q)
    (hf : P.prepareCacheFrontier W s₀ = (s, .ok ())) (hp : Planned P s)
    (hi : J₁ [] s none) (hrun : P.runMetadataVariablePrepass W s = (s', result)) :
    (∃ raised, result = .error raised ∧ Q s' (.error raised)) ∨
      (∃ r, result = .ok r ∧ (r.stopRequested = true ∨ r.shouldBreak = true) ∧
        Q s' (.ok (({} : Flags).note r))) ∨
      ∃ done first, result = .ok { errorMessage := first } ∧ Visited P s done s' ∧
        J₁ done s' first := by
  rw [runMetadataVariablePrepass] at hrun
  split at hrun
  · next raised _ =>
    cases hrun
    exact .inl ⟨raised, rfl, h.unordered s raised hi⟩
  · next order horder =>
    obtain ⟨hn, -, hh⟩ := prepassOrder_spec hp horder
    have hs : P.prepassOrder W s₀ = order := by
      rw [prepassOrder, hf, horder]
    have hloop := visits_rule (P.prepassStep W) (W.visit .prepass)
      (fun done c => J₁ done c.1 c.2.errorMessage ∧ c.2 = { errorMessage := c.2.errorMessage })
      (fun c control => (∃ raised, control = .raise raised ∧ Q c.1 (.error raised)) ∨
        control = .leave ∧ (c.2.stopRequested = true ∨ c.2.shouldBreak = true) ∧
          Q c.1 (.ok (({} : Flags).note c.2)))
      {} hp.consistent hh hn ?_ ⟨hi, rfl⟩ ?_ ?_
    · rcases hl : loop (P.prepassStep W) order (s, {}) with ⟨⟨s₂, acc⟩, control⟩
      rw [hl] at hloop hrun
      rcases hloop with ⟨hnext, hv, hJ, hacc⟩ | ⟨-, ⟨raised, hr, hQ⟩ | ⟨hlea, hends, hQ⟩⟩
      · subst hnext
        cases hrun
        exact .inr (.inr ⟨order, acc.errorMessage, congrArg Except.ok hacc, hv, hJ⟩)
      · subst hr
        cases hrun
        exact .inl ⟨raised, rfl, hQ⟩
      · subst hlea
        cases hrun
        exact .inr (.inl ⟨acc, rfl, hends, hQ⟩)
    · intro c n c' heq
      cases prepassStep_of_eq heq with
      | next hstep hstop hbreak => exact ⟨_, hstep, hstop, hbreak⟩
    · rintro done n c c' ht ⟨hJ, -⟩ heq
      cases prepassStep_of_eq heq with
      | next hstep hstop hbreak =>
        exact ⟨h.prepassNext done n _ _ _ _ (hs ▸ ht) hJ hstep hstop hbreak, rfl⟩
    · rintro done n c c' control ht ⟨hJ, -⟩ heq hne
      cases prepassStep_of_eq heq with
      | raised hstep =>
        exact .inl ⟨_, rfl, h.prepassRaised done n _ _ _ _ (hs ▸ ht) hJ hstep⟩
      | left hstep hends =>
        exact .inr ⟨rfl, hends, h.prepassLeft done n _ _ _ _ (hs ▸ ht) hJ hstep hends⟩
      | next _ _ _ => exact absurd rfl hne

lemma Processor.Heeds.mono {order : List String} (hg : Grows P s s') (h : P.Heeds s order) :
    P.Heeds s' order :=
  fun before n after hs m hm =>
    (h before n after hs m hm).imp_right fun hc => hg.completed hc

lemma RunRule.main {flags flags' : Flags} {control : Control Raised}
    (h : RunRule P W s₀ J₁ J₂ Q) (hc : Consistent P s)
    (hh : P.Heeds s s.effectiveExecutionOrder)
    (hsub : s.effectiveExecutionOrder.Sublist (fullOrder P.task.pipeline)) (hi : J₂ [] s flags)
    (heq : loop (P.mainStep W) s.effectiveExecutionOrder (s, flags) = ((s', flags'), control)) :
    Q s' (control.result flags') := by
  have hloop := visits_rule (P.mainStep W) (W.visit .main) (fun done c => J₂ done c.1 c.2)
    (fun c control => Q c.1 (control.result c.2)) flags hc hh (hsub.nodup (nodup_fullOrder _))
    ?_ hi ?_ ?_
  · rw [heq] at hloop
    rcases hloop with ⟨rfl, hv, hJ⟩ | ⟨-, hQ⟩
    · have horder := hv.grows.order
      refine h.finish _ _ hv.consistent ?_ ?_ ?_
      · rw [horder]
        exact fun n hn => fullOrderBy_subset (enumerates_dependentsOf _) (hsub.subset hn)
      · rw [horder]
        exact hv.settled
      · rw [horder]
        exact hJ
    · exact hQ
  · intro c n c' heq
    cases mainStep_of_eq heq with
    | next hstep hstop hbreak => exact ⟨_, hstep, hstop, hbreak⟩
  · intro done n c c' ht hJ heq
    cases mainStep_of_eq heq with
    | next hstep hstop hbreak => exact h.mainNext _ done n _ _ _ _ ht hJ hstep hstop hbreak
  · intro done n c c' control ht hJ heq hne
    cases mainStep_of_eq heq with
    | stopped => exact h.stopped done _ _ hJ
    | raised hstep => exact h.mainRaised _ done n _ _ _ _ ht hJ hstep
    | left hstep hends => exact h.mainLeft _ done n _ _ _ _ ht hJ hstep hends
    | next _ _ _ => exact absurd rfl hne

lemma RunRule.runTask (h : RunRule P W s₀ J₁ J₂ Q) (hs₀ : Unstarted s₀)
    (hsort : P.task.sorted = .ok s₀.executionOrder) :
    Q (P.runTask W s₀).1 (P.runTask W s₀).2 := by
  rw [Processor.runTask]
  split
  · next s raised hf =>
    obtain ⟨⟨ids, hn, hr⟩, -⟩ := prepareCacheFrontier_spec hsort hs₀ hf
    exact h.frontier ids s raised hn hr
  · next s hf =>
    obtain ⟨⟨ids, hn, hr⟩, hp⟩ := prepareCacheFrontier_spec hsort hs₀ hf
    have hp := hp rfl
    split
    · next s' raised hrun =>
      rcases h.prepass hf hp (h.plan ids s hn hr hp) hrun with
        ⟨_, heq, hQ⟩ | ⟨_, heq, _⟩ | ⟨_, _, heq, _⟩
      · cases heq
        exact hQ
      · cases heq
      · cases heq
    · next s' r hrun =>
      rcases h.prepass hf hp (h.plan ids s hn hr hp) hrun with
        ⟨_, heq, _⟩ | ⟨r', heq, hends, hQ⟩ | ⟨done, first, heq, hv, hJ⟩
      · cases heq
      · cases heq
        rw [if_pos (by simpa [Flags.note] using hends)]
        exact hQ
      · cases heq
        rw [if_neg (by simp [Flags.note])]
        have hh : P.Heeds s' s'.effectiveExecutionOrder := by
          rw [hv.grows.order]
          exact hp.heeds.mono hv.grows
        have hsub : s'.effectiveExecutionOrder.Sublist (fullOrder P.task.pipeline) := by
          rw [hv.grows.order]
          exact hp.sublist
        split
        all_goals next hl => exact h.main hv.consistent hh hsub (h.turn done s' first hJ) hl

end

def sampleDefinition (name : String) : NodeDefinition Bool Unit where
  inputs := {
    name
    inputDefinitions := (Dict.empty.set "input_variables"
      { type := (), isVariable := true, allowMultipleConnections := true }).set "signal_in"
      { type := (), isSignal := true, allowMultipleConnections := true }
    runtimeInputs_subset := Inputs.entries_id_subset }
  outputType _ := ()
  metadataVariablePrepassInputs := if name = "ReadTableFromDB" then ["table_name"] else []

def sampleProcessor (pipeline : Pipeline) : Processor Bool Unit where
  registry := csvRegistry
  definition := sampleDefinition
  evaluator := {
    isIdentifier _ := true
    defaultPolicy := { name := "default" }
    run _ _ _ text _ := .ok (.text text)
    coerce value _ _ := .ok value }
  render _ _ text _ _ := .ok text
  constant := .text
  toBool := some
  ofBool := id
  toBool_ofBool _ := rfl
  getHash _ := ""
  createNodeInputsFingerprint name _ _ := name
  task := { csvTask [] with pipeline }
  mode := .metadataOnly
  projectVariables := .empty
  dataStores := true
  metadataStore := true
  onNodeMetadata := true

end Dvt.Execution
