import Dvt.Library.Programs

/-! The installation of a staged package: its directory and the extension record. -/

namespace Dvt.Extensions.Install

open Library

inductive DepsStatus
  | notInstalled
  | installing
  | installed
  | error
  deriving DecidableEq, Repr

structure Record (μ : Type) where
  name : String
  displayName : String
  description : String
  isEnabled : Bool
  isInstalled : Bool
  depsStatus : DepsStatus
  currentVersion : Option String
  lastVersion : Option String
  installPath : Option String
  manifestJson : μ
  errorMessage : Option String
  installedAt : Option ℕ
  updatedAt : ℕ

structure Manifest where
  version : String
  displayName : Option String
  description : String
  deriving DecidableEq, Repr

abbrev Tree (φ : Type) := List φ

inductive Fault (φ : Type)
  | prepare
  | move (candidate stage : Option (Tree φ))
  | backUp
  | swap
  | manifest
  | update (committed : Bool)
  | requirements
  | migration
  | refresh (failure : Option String)
  | broadcast
  | removeBackup (keep : φ → Bool)

structure Setting (φ μ : Type) where
  installRoot : String
  latestVersion : Option String
  now : ℕ
  loadManifest : Tree φ → Except String (Option Manifest)
  checkCompatibility : Manifest → Bool
  manifestWithAliases : Record μ → Manifest → μ
  fault : Option (Fault φ)

/-- `row` is the record in the database; `swap` tells whether there is a backup. -/
structure State (φ μ : Type) where
  installed : Option (Tree φ)
  candidate : Option (Tree φ) := none
  backup : Option (Tree φ) := none
  stage : Option (Tree φ)
  record : Record μ
  row : Record μ
  swap : Option Bool := none

abbrev Run (φ μ : Type) := EStateM String (State φ μ)

section

variable {φ μ : Type} (e : Setting φ μ)

def raiseIf (fails : Fault φ → Bool) (message : String) : Run φ μ PUnit :=
  if e.fault.any fails then throw message else pure ()

def move : Run φ μ PUnit :=
  match e.fault with
  | some (.move candidate stage) => do
    modify fun s => { s with candidate, stage }
    throw "move"
  | _ => modify fun s => { s with candidate := s.stage, stage := none }

/-- `install_root.replace(backup_root)` and `candidate_root.replace(install_root)` -/
def backUp (hasBackup : Bool) : Run φ μ PUnit :=
  if hasBackup then do
    raiseIf e (fun | .backUp => true | _ => false) "backup"
    modify fun s => { s with backup := s.installed, installed := none }
  else pure ()

def swapIn : Run φ μ PUnit := do
  raiseIf e (fun | .swap => true | _ => false) "swap"
  modify fun s => { s with installed := s.candidate, candidate := none }

def State.undoActivation (hasBackup : Bool) (s : State φ μ) : State φ μ :=
  let s := if s.installed.isSome && hasBackup && s.backup.isSome then { s with installed := none } else s
  let s := if hasBackup && s.backup.isSome && s.installed.isNone then
      { s with installed := s.backup, backup := none }
    else s
  { s with candidate := none, stage := none }

def activateStagedPackage : Run φ μ Bool := do
  raiseIf e (fun | .prepare => true | _ => false) "mkdir"
  let hasBackup := (← get).installed.isSome
  tryCatch (do
      move e
      backUp e hasBackup
      swapIn e)
    fun raised => do
      modify (State.undoActivation hasBackup)
      throw raised
  return hasBackup

def removeBackup (hasBackup : Bool) : Run φ μ PUnit := do
  if hasBackup && (← get).backup.isSome then
    match e.fault with
    | some (.removeBackup keep) =>
      modify fun s => { s with backup := s.backup.map (·.filter keep) }
      throw "rmtree"
    | _ => modify fun s => { s with backup := none }

def commitInstallSwap (hasBackup : Bool) : Run φ μ PUnit := do
  removeBackup e hasBackup
  modify fun s => { s with stage := none }

def State.rollbackInstallSwap (hasBackup : Bool) (s : State φ μ) : State φ μ :=
  let s := { s with installed := none }
  let s := if hasBackup && s.backup.isSome then { s with installed := s.backup, backup := none } else s
  { s with stage := none }

def checkManifest : Run φ μ Manifest := do
  raiseIf e (fun | .manifest => true | _ => false) "manifest"
  match (← get).installed.elim (.ok none) e.loadManifest with
  | .error raised => throw raised
  | .ok none => throw ("Manifest not found in '" ++ e.installRoot ++ "'")
  | .ok (some manifest) =>
    if e.checkCompatibility manifest then return manifest
    else throw "incompatible"

def orElse (a : Option String) (b : String) : String := (a.filter (· ≠ "")).getD b

def marked (manifest : Manifest) (record : Record μ) : Record μ :=
  { record with
    displayName := orElse manifest.displayName (orElse (some record.displayName) record.name)
    description := orElse (some manifest.description) record.description
    currentVersion := some manifest.version
    lastVersion := some (orElse e.latestVersion manifest.version)
    installPath := some e.installRoot
    manifestJson := e.manifestWithAliases record manifest
    isInstalled := true
    depsStatus := .installing
    errorMessage := none
    installedAt := some e.now
    updatedAt := e.now }

def markInstalled (manifest : Manifest) : Run φ μ PUnit := do
  modify fun s => { s with record := marked e manifest s.record }
  raiseIf e (fun | .update committed => !committed | _ => false) "commit"
  modify fun s => { s with row := s.record }
  raiseIf e (fun | .update committed => committed | _ => false) "refresh"

def setRuntimeError (errorMessage : Option String) : Run φ μ PUnit := modify fun s =>
  if s.record.errorMessage = errorMessage then s
  else
    let record := { s.record with errorMessage, updatedAt := e.now }
    { s with record, row := record }

def retryableErrors : List String :=
  ["Manifest validation failed:", "Extension migration failed:", "Gateway entrypoint import failed:",
    "Extension router validation failed:", "Extension node backend validation failed:",
    "Extension node import failed:", "Extension node registry failed:", "Extension runtime failed:"]

def hasRetryableRuntimeError (message : Option String) : Bool :=
  message.any fun message => retryableErrors.any fun text => text.toList.isPrefixOf message.toList

def Record.isLoaded (record : Record μ) : Bool :=
  record.isInstalled && record.isEnabled && record.installPath.any (· ≠ "") &&
    (record.errorMessage.all (· = "") || hasRetryableRuntimeError record.errorMessage)

def refreshRuntime (failure : Option (Option String)) : Run φ μ PUnit := do
  match failure with
  | some none => throw "runtime"
  | some (some message) => do
    setRuntimeError e (some message)
    throw message
  | none =>
    let record := (← get).record
    if record.isLoaded && hasRetryableRuntimeError record.errorMessage then setRuntimeError e none

def installSteps : Run φ μ PUnit := do
  let swap ← activateStagedPackage e
  modify fun s => { s with swap := some swap }
  let manifest ← checkManifest e
  markInstalled e manifest
  raiseIf e (fun | .requirements => true | _ => false) "requirements"
  raiseIf e (fun | .migration => true | _ => false) "migration"
  refreshRuntime e (e.fault.bind fun | .refresh failure => some failure | _ => none)
  raiseIf e (fun | .broadcast => true | _ => false) "broadcast"
  commitInstallSwap e swap

def restoreInstallRecord (previous : Record μ) : Run φ μ PUnit :=
  modify fun s => { s with record := previous, row := previous }

def State.rollback (s : State φ μ) : State φ μ :=
  match s.swap with
  | some hasBackup => s.rollbackInstallSwap hasBackup
  | none => { s with stage := none }

def reactivate (previous : Record μ) : Run φ μ PUnit :=
  if previous.isInstalled && previous.installPath.any (· ≠ "") then refreshRuntime e none else pure ()

def recover (previous : Record μ) (raised : String) : Run φ μ PUnit := do
  modify State.rollback
  restoreInstallRecord previous
  reactivate e previous
  throw ("Extension install failed: " ++ raised)

/-- `_install_staged_package` without its effects on the runtime registries. -/
def installStagedPackage : Run φ μ PUnit := do
  let previous := (← get).record
  tryCatch (installSteps e) (recover e previous)

end

variable {φ μ : Type}

/-- Up to the runtime error, which a refresh may set. -/
def Record.SameInstall (a b : Record μ) : Prop :=
  { a with errorMessage := b.errorMessage, updatedAt := b.updatedAt } = b

def Record.Says (record : Record μ) (manifest : Manifest) : Prop :=
  record.isInstalled = true ∧ record.currentVersion = some manifest.version

def Consistent (e : Setting φ μ) (new : Tree φ) (before after : State φ μ) : Prop :=
  (after.installed = some new ∧
    ∃ manifest, e.loadManifest new = .ok (some manifest) ∧ after.row.Says manifest) ∨
  (after.installed = before.installed ∧ after.row.SameInstall before.row)

def LosesBackup (e : Setting φ μ) (new : Tree φ) (keep : φ → Bool) (manifest : Manifest) : Prop :=
  e.fault = some (.removeBackup keep) ∧ e.loadManifest new = .ok (some manifest) ∧
    e.checkCompatibility manifest = true

structure Start (new : Tree φ) (s : State φ μ) : Prop where
  candidate : s.candidate = none
  backup : s.backup = none
  stage : s.stage = some new
  record : s.record = s.row
  swap : s.swap = none

variable {e : Setting φ μ} {pre : State φ μ → Prop} {start : State φ μ} {new : Tree φ}

def Kept (e : Setting φ μ) : Prop := ∀ keep, e.fault ≠ some (.removeBackup keep)

lemma meets_raiseIf {fails : Fault φ → Bool} (message : String)
    (hfails : ∀ keep, fails (.removeBackup keep) = false) :
    Meets pre (raiseIf e fails message) (fun _ => pre) fun _ s => pre s ∧ Kept e := by
  refine .ite (fun h => .throw fun s hs => ⟨hs, fun keep hk => ?_⟩) fun _ =>
    .pure fun s hs => hs
  rw [hk, Option.any_some, hfails] at h
  cases h

def Halfway (start s : State φ μ) : Prop :=
  s.swap = none ∧ (s.installed = start.installed ∧ s.backup = none ∨
    s.installed = none ∧ s.backup = start.installed)

lemma undoActivation_installed {s : State φ μ} (h : Halfway start s) :
    (s.undoActivation start.installed.isSome).installed = start.installed := by
  obtain ⟨-, ⟨hi, hb⟩ | ⟨hi, hb⟩⟩ := h
  · simp [State.undoActivation, hi, hb]
  · cases hold : start.installed with
    | none | some old => simp [State.undoActivation, hi, hb, hold]

lemma meets_move (hs : Start new start) : Meets (· = start) (move e)
    (fun _ s => s.candidate = some new ∧ s.installed = start.installed ∧ s.backup = none ∧ s.swap = none)
    fun _ s => Halfway start s ∧ Kept e := by
  unfold move
  split
  · next candidate stage hf =>
    rintro s rfl
    refine ⟨⟨hs.swap, .inl ⟨rfl, hs.backup⟩⟩, fun keep hk => ?_⟩
    rw [hf] at hk
    cases hk
  · rintro s rfl
    exact ⟨hs.stage, rfl, hs.backup, hs.swap⟩

lemma meets_backUp : Meets (fun s => s.candidate = some new ∧ s.installed = start.installed ∧
      s.backup = none ∧ s.swap = none) (backUp e start.installed.isSome)
    (fun _ s => s.candidate = some new ∧ s.installed = none ∧ s.backup = start.installed ∧ s.swap = none)
    fun _ s => Halfway start s ∧ Kept e := by
  refine .ite (fun _ => ?_) fun hn => ?_
  · refine .bind ((meets_raiseIf "backup" fun _ => rfl).mono_raised fun _ s hs =>
      ⟨⟨hs.1.2.2.2, .inl ⟨hs.1.2.1, hs.1.2.2.1⟩⟩, hs.2⟩) fun _ => ?_
    exact Meets.modify fun s hs => ⟨hs.1, rfl, hs.2.1, hs.2.2.2⟩
  · refine .pure fun s hs => ⟨hs.1, ?_, ?_, hs.2.2.2⟩
    · rw [hs.2.1]
      simpa using hn
    · rw [hs.2.2.1]
      exact (Option.not_isSome_iff_eq_none.mp hn).symm

lemma meets_swapIn : Meets (fun s => s.candidate = some new ∧ s.installed = none ∧
      s.backup = start.installed ∧ s.swap = none) (swapIn e)
    (fun _ s => s.installed = some new ∧ s.backup = start.installed)
    fun _ s => Halfway start s ∧ Kept e := by
  refine .bind ((meets_raiseIf "swap" fun _ => rfl).mono_raised fun _ s hs =>
    ⟨⟨hs.1.2.2.2, .inr ⟨hs.1.2.1, hs.1.2.2.1⟩⟩, hs.2⟩) fun _ => ?_
  exact Meets.modify fun s hs => ⟨hs.1, hs.2.2.1⟩

lemma meets_activate (hsta : Start new start) : Meets (· = start) (activateStagedPackage e)
    (fun hasBackup s => hasBackup = start.installed.isSome ∧ s.installed = some new ∧
      s.backup = start.installed)
    fun _ s => (s.installed = start.installed ∧ s.swap = none) ∧ Kept e := by
  refine .bind ((meets_raiseIf "mkdir" fun _ => rfl).mono_raised fun _ s hs =>
    ⟨⟨by rw [hs.1], by rw [hs.1, hsta.swap]⟩, hs.2⟩) fun _ => ?_
  refine Meets.get_bind fun t => ?_
  refine .bind (R := fun _ s => t = start ∧ s.installed = some new ∧ s.backup = start.installed)
    ?_ fun _ => .pure fun s hs => ⟨by rw [hs.1], hs.2⟩
  by_cases ht : t = start
  · subst ht
    refine .tryCatch (E := fun _ s => Halfway t s ∧ Kept e)
      (.bind ((meets_move hsta).strengthen fun s hs => hs.2) fun _ => .bind meets_backUp fun _ =>
        meets_swapIn.weaken fun _ s hs => ⟨rfl, hs⟩) fun raised => ?_
    refine .bind (R := fun _ s => (s.installed = t.installed ∧ s.swap = none) ∧ Kept e)
      (Meets.modify fun s hs => ⟨⟨undoActivation_installed hs.1, ?_⟩, hs.2⟩) fun _ =>
        .throw fun s hs => hs
    rw [← hs.1.1, State.undoActivation]
    split <;> split <;> rfl
  · exact fun s hs => absurd (hs.1.symm.trans hs.2) ht

variable {manifest : Manifest}

def Swapped (start : State φ μ) (new : Tree φ) (s : State φ μ) : Prop :=
  s.installed = some new ∧ s.backup = start.installed ∧ s.swap = some start.installed.isSome

def Loses (e : Setting φ μ) (new : Tree φ) : Prop := ∃ keep manifest, LosesBackup e new keep manifest

lemma Kept.not_loses (h : Kept e) : ¬ Loses e new := by
  rintro ⟨keep, manifest, hf, -⟩
  exact h keep hf

lemma meets_checkManifest : Meets (Swapped start new) (checkManifest e)
    (fun manifest s => (e.loadManifest new = .ok (some manifest) ∧
      e.checkCompatibility manifest = true) ∧ Swapped start new s)
    fun _ s => Swapped start new s ∧ ¬ Loses e new := by
  refine .bind ((meets_raiseIf "manifest" fun _ => rfl).mono_raised fun _ s hs =>
    ⟨hs.1, hs.2.not_loses⟩) fun _ => Meets.get_bind fun t => ?_
  by_cases ht : t.installed = some new
  · rw [ht, Option.elim_some]
    cases hl : e.loadManifest new with
    | error raised =>
      refine .throw fun s hs => ⟨hs.2, ?_⟩
      rintro ⟨_, manifest, -, hok, -⟩
      rw [hl] at hok
      cases hok
    | ok found =>
      cases found with
      | none =>
        refine .throw fun s hs => ⟨hs.2, ?_⟩
        rintro ⟨_, manifest, -, hok, -⟩
        rw [hl] at hok
        cases hok
      | some manifest =>
        refine .ite (fun hc => .pure fun s hs => ⟨⟨rfl, hc⟩, hs.2⟩)
          fun hc => .throw fun s hs => ⟨hs.2, ?_⟩
        rintro ⟨_, manifest', -, hok, hc'⟩
        rw [hl] at hok
        cases hok
        exact hc hc'
  · exact fun s hs => absurd (hs.1 ▸ hs.2.1) ht

def Marked (start : State φ μ) (new : Tree φ) (manifest : Manifest) (s : State φ μ) : Prop :=
  Swapped start new s ∧ s.record.Says manifest ∧ s.row.Says manifest

lemma meets_markInstalled : Meets (Swapped start new) (markInstalled e manifest)
    (fun _ => Marked start new manifest) fun _ s => Swapped start new s ∧ ¬ Loses e new := by
  refine .bind (R := fun _ s => Swapped start new s ∧ s.record.Says manifest)
    (Meets.modify fun s hs => ⟨hs, rfl, rfl⟩) fun _ => ?_
  refine .bind ((meets_raiseIf "commit" fun _ => rfl).mono_raised fun _ s hs =>
    ⟨hs.1.1, hs.2.not_loses⟩) fun _ => ?_
  refine .bind (R := fun _ => Marked start new manifest)
    (Meets.modify fun s hs => ⟨hs.1, hs.2, hs.2⟩) fun _ => ?_
  exact (meets_raiseIf "refresh" fun _ => rfl).mono_raised fun _ s hs => ⟨hs.1.1, hs.2.not_loses⟩

lemma meets_setRuntimeError (errorMessage : Option String) {raised : String → State φ μ → Prop} :
    Meets (Marked start new manifest) (setRuntimeError e errorMessage)
      (fun _ => Marked start new manifest) raised := by
  refine Meets.modify fun s hs => ?_
  split
  · exact hs
  · exact ⟨hs.1, hs.2.1, hs.2.1⟩

lemma meets_refreshRuntime {failure : Option (Option String)} (h : failure.isSome = true → Kept e) :
    Meets (Marked start new manifest) (refreshRuntime e failure)
      (fun _ => Marked start new manifest) fun _ s => Swapped start new s ∧ ¬ Loses e new := by
  cases failure with
  | none =>
    refine Meets.get_bind fun t => .ite (fun _ => ?_) fun _ => .pure fun s hs => hs.2
    exact (meets_setRuntimeError none).strengthen fun s hs => hs.2
  | some failure =>
    have hk : ¬ Loses e new := (h rfl).not_loses
    cases failure with
    | none => exact .throw fun s hs => ⟨hs.1, hk⟩
    | some message =>
      exact .bind (meets_setRuntimeError (some message)) fun _ => .throw fun s hs => ⟨hs.1, hk⟩

def Partial (e : Setting φ μ) (start : State φ μ) (new : Tree φ) (s : State φ μ) : Prop :=
  ∃ keep old manifest, start.installed = some old ∧ LosesBackup e new keep manifest ∧
    s.backup = some (old.filter keep) ∧ s.swap = some true

lemma meets_removeBackup (hm : e.loadManifest new = .ok (some manifest))
    (hc : e.checkCompatibility manifest = true) :
    Meets (Marked start new manifest) (removeBackup e start.installed.isSome)
      (fun _ s => s.installed = some new ∧ s.row.Says manifest ∧
        (Loses e new → start.installed = none)) fun _ => Partial e start new := by
  refine Meets.get_bind fun t => .ite (fun hb => ?_) fun hb => .pure fun s hs => ?_
  · obtain ⟨old, hold⟩ := Option.isSome_iff_exists.mp (Bool.and_eq_true_iff.mp hb).1
    split
    · next keep hf =>
      refine .bind (R := fun _ s => s.backup = some (old.filter keep) ∧ s.swap = some true)
        (Meets.modify fun s hs => ?_) fun _ => .throw fun s hs =>
          ⟨keep, old, manifest, hold, ⟨hf, hm, hc⟩, hs⟩
      obtain ⟨-, ⟨-, hsba, hswap⟩, -⟩ := hs
      rw [hsba, hswap, hold]
      exact ⟨rfl, rfl⟩
    · next hf =>
      refine Meets.modify fun s hs => ⟨hs.2.1.1, hs.2.2.2, ?_⟩
      rintro ⟨keep, _, hk, -⟩
      exact absurd hk (hf keep)
  · refine ⟨hs.2.1.1, hs.2.2.2, fun _ => ?_⟩
    obtain ⟨rfl, ⟨-, hsba, -⟩, -⟩ := hs
    rw [hsba, Bool.and_self] at hb
    exact Option.not_isSome_iff_eq_none.mp hb

def Interrupted (e : Setting φ μ) (start : State φ μ) (new : Tree φ) (s : State φ μ) : Prop :=
  (s.installed = start.installed ∧ s.swap = none ∨ Swapped start new s) ∧ ¬ Loses e new ∨
    Partial e start new s

lemma meets_installSteps (hsta : Start new start) : Meets (· = start) (installSteps e)
    (fun _ s => s.installed = some new ∧ (∃ manifest, e.loadManifest new = .ok (some manifest) ∧
      s.row.Says manifest) ∧ (Loses e new → start.installed = none))
    fun _ => Interrupted e start new := by
  have hswa : ∀ {s : State φ μ}, Swapped start new s ∧ ¬ Loses e new → Interrupted e start new s :=
    fun hs => .inl ⟨.inr hs.1, hs.2⟩
  have hr : ∀ {fails : Fault φ → Bool} (manifest : Manifest) (message : String),
      (∀ keep, fails (.removeBackup keep) = false) →
      Meets (Marked start new manifest) (raiseIf e fails message) (fun _ => Marked start new manifest)
        fun _ => Interrupted e start new := fun manifest message hfails =>
    (meets_raiseIf message hfails).mono_raised fun _ s hs => hswa ⟨hs.1.1, hs.2.not_loses⟩
  refine .bind ((meets_activate hsta).mono_raised fun _ s hs => .inl ⟨.inl hs.1, hs.2.not_loses⟩)
    fun swap => Meets.assume ?_
  rintro rfl
  refine .bind (R := fun _ => Swapped start new) (Meets.modify fun s hs => ⟨hs.1, hs.2, rfl⟩)
    fun _ => .bind (meets_checkManifest.mono_raised fun _ _ => hswa)
      fun manifest => Meets.assume fun hm => ?_
  refine .bind (meets_markInstalled.mono_raised fun _ _ => hswa)
    fun _ => .bind (hr manifest "requirements" fun _ => rfl) fun _ =>
      .bind (hr manifest "migration" fun _ => rfl) fun _ => ?_
  refine .bind ((meets_refreshRuntime fun hsome keep hk => ?_).mono_raised fun _ _ => hswa) fun _ =>
      .bind (hr manifest "broadcast" fun _ => rfl) fun _ =>
        .bind ((meets_removeBackup hm.1 hm.2).mono_raised fun _ _ => .inr)
          fun _ => Meets.modify fun s hs => ⟨hs.1, ⟨manifest, hm.1, hs.2.1⟩, hs.2.2⟩
  rw [hk] at hsome
  cases hsome

lemma meets_recover (previous : Record μ) (raised : String) {installed : Option (Tree φ)} :
    Meets (fun s => s.rollback.installed = installed) (recover e previous raised) (fun _ _ => False)
      fun _ s => s.installed = installed ∧ s.row.SameInstall previous := by
  refine .bind (R := fun _ s => s.installed = installed) (Meets.modify fun s hs => hs) fun _ =>
    .bind (R := fun _ s => s.installed = installed ∧ s.record = previous ∧ s.row = previous)
      (Meets.modify fun s hs => ⟨hs, rfl, rfl⟩) fun _ =>
    .bind (R := fun _ s => s.installed = installed ∧ s.row.SameInstall previous) ?_ fun _ =>
      .throw fun s hs => hs
  refine .ite (fun _ => Meets.get_bind fun t => .ite (fun _ => Meets.modify fun s hs => ?_) ?_) ?_
  · obtain ⟨-, hi, hr, hrow⟩ := hs
    split
    · exact ⟨hi, by rw [hrow]; rfl⟩
    · exact ⟨hi, by rw [hr]; rfl⟩
  · exact fun _ => .pure fun s hs => ⟨hs.2.1, by rw [hs.2.2.2]; rfl⟩
  · exact fun _ => .pure fun s hs => ⟨hs.1, by rw [hs.2.2]; rfl⟩

lemma rollback_installed {s : State φ μ}
    (h : s.installed = start.installed ∧ s.swap = none ∨ Swapped start new s) :
    s.rollback.installed = start.installed := by
  rcases h with ⟨hi, hs⟩ | ⟨-, hb, hs⟩
  · simp [State.rollback, hs, hi]
  · cases hold : start.installed with
    | none | some old => simp [State.rollback, State.rollbackInstallSwap, hs, hb, hold]

def Recovered (e : Setting φ μ) (start : State φ μ) (new : Tree φ) (s : State φ μ) : Prop :=
  s.row.SameInstall start.row ∧ (s.installed = start.installed ∧ ¬ Loses e new ∨
    ∃ keep old manifest, start.installed = some old ∧ LosesBackup e new keep manifest ∧
      s.installed = some (old.filter keep))

lemma meets_recovered (raised : String) : Meets (Interrupted e start new) (recover e start.row raised)
    (fun _ _ => False) fun _ => Recovered e start new := by
  rintro s (⟨hp, hl⟩ | ⟨keep, old, manifest, hold, hlost, hb, hs⟩)
  · exact (meets_recover start.row raised).mono_raised (fun _ t ht => ⟨ht.2, .inl ⟨ht.1, hl⟩⟩) s
      (rollback_installed hp)
  · refine (meets_recover start.row raised).mono_raised
      (fun _ t ht => ⟨ht.2, .inr ⟨keep, old, manifest, hold, hlost, ht.1⟩⟩) s ?_
    simp [State.rollback, State.rollbackInstallSwap, hs, hb]

lemma meets_installStagedPackage (hs : Start new start) : Meets (· = start) (installStagedPackage e)
      (fun _ s => s.installed = some new ∧ (∃ manifest, e.loadManifest new = .ok (some manifest) ∧
        s.row.Says manifest) ∧ (Loses e new → start.installed = none))
      fun _ => Recovered e start new := by
  refine Meets.get_bind fun t => ?_
  rintro s ⟨rfl, rfl⟩
  refine Meets.tryCatch (meets_installSteps hs) (fun raised => ?_) s rfl
  rw [hs.record]
  exact (meets_recovered raised).weaken fun _ _ => False.elim

lemma Record.SameInstall.says {a b : Record μ} (h : a.SameInstall b) : a.Says manifest ↔ b.Says manifest := by
  rw [← h]
  rfl

theorem consistent_iff (hstart : Start new start) :
    Consistent e new start (endState (installStagedPackage e start)) ↔
      ∀ keep old manifest, start.installed = some old → LosesBackup e new keep manifest →
        old.filter keep = old ∨ old.filter keep = new ∧ start.row.Says manifest := by
  refine Meets.endState (Q := fun s => Consistent e new start s ↔ _)
    ((meets_installStagedPackage hstart).conseq (fun _ h => h) (fun _ s hs => ?_) fun _ s hs => ?_) rfl
  · refine iff_of_true (.inl ⟨hs.1, hs.2.1⟩) fun keep old manifest hold hlost => ?_
    rw [hs.2.2 ⟨keep, manifest, hlost⟩] at hold
    cases hold
  · obtain ⟨hrow, ⟨hinstalled, hloses⟩ | ⟨keep, old, manifest, hold, hlost, hinstalled⟩⟩ := hs
    · exact iff_of_true (.inr ⟨hinstalled, hrow⟩) fun keep old manifest _ hlost =>
        absurd ⟨keep, manifest, hlost⟩ hloses
    · constructor
      · intro hconsistent keep' old' manifest' hold' hlost'
        obtain rfl : old = old' := Option.some_inj.mp (hold.symm.trans hold')
        cases hlost.1.symm.trans hlost'.1
        cases hlost.2.1.symm.trans hlost'.2.1
        rcases hconsistent with ⟨hnew, manifest', hload, hsays⟩ | ⟨hsame, -⟩
        · cases hlost.2.1.symm.trans hload
          exact .inr ⟨Option.some_inj.mp (hinstalled.symm.trans hnew), hrow.says.mp hsays⟩
        · exact .inl (Option.some_inj.mp (hinstalled.symm.trans (hsame.trans hold)))
      · intro hcond
        rcases hcond keep old manifest hold hlost with hkeep | ⟨hnew, hsays⟩
        · exact .inr ⟨by rw [hinstalled, hkeep, hold], hrow⟩
        · exact .inl ⟨by rw [hinstalled, hnew], manifest, hlost.2.1, hrow.says.mpr hsays⟩

def sampleRecord : Record Unit where
  name := "sample"
  displayName := "Sample"
  description := ""
  isEnabled := true
  isInstalled := true
  depsStatus := .installed
  currentVersion := some "1.0"
  lastVersion := some "1.0"
  installPath := some "extensions/sample"
  manifestJson := ()
  errorMessage := none
  installedAt := some 0
  updatedAt := 0

def sampleState : State String Unit where
  installed := some ["pyproject.toml", "nodes.py"]
  stage := some ["pyproject.toml", "new_nodes.py"]
  record := sampleRecord
  row := sampleRecord

def sampleSetting (fault : Fault String) : Setting String Unit where
  installRoot := "extensions/sample"
  latestVersion := none
  now := 1
  loadManifest _ := .ok (some ⟨"2.0", none, ""⟩)
  checkCompatibility _ := true
  manifestWithAliases _ _ := ()
  fault := some fault

lemma start_sampleState : Start ["pyproject.toml", "new_nodes.py"] sampleState :=
  ⟨rfl, rfl, rfl, rfl, rfl⟩

theorem consistent_broadcast : Consistent (sampleSetting .broadcast) ["pyproject.toml", "new_nodes.py"]
    sampleState (endState (installStagedPackage (sampleSetting .broadcast) sampleState)) :=
  (consistent_iff start_sampleState).mpr fun _ _ _ _ hlost => nomatch hlost.1

/-- The commit fails when it has deleted one file of the backup; the rest becomes the installation. -/
theorem not_consistent_removeBackup : Start ["pyproject.toml", "new_nodes.py"] sampleState ∧
    (endState (installStagedPackage (sampleSetting (.removeBackup (· ≠ "nodes.py"))) sampleState)).installed =
      some ["pyproject.toml"] ∧
    ¬ Consistent (sampleSetting (.removeBackup (· ≠ "nodes.py"))) ["pyproject.toml", "new_nodes.py"]
      sampleState
      (endState (installStagedPackage (sampleSetting (.removeBackup (· ≠ "nodes.py"))) sampleState)) := by
  have hinstalled : (endState (installStagedPackage (sampleSetting (.removeBackup (· ≠ "nodes.py")))
      sampleState)).installed = some ["pyproject.toml"] := by decide +kernel
  refine ⟨start_sampleState, hinstalled, ?_⟩
  rintro (⟨hnew, -⟩ | ⟨hold, -⟩)
  · rw [hinstalled] at hnew
    cases hnew
  · rw [hinstalled] at hold
    cases hold

end Dvt.Extensions.Install
