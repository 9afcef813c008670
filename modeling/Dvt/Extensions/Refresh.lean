import Dvt.Library.Programs
import Mathlib.Data.Int.Order.Basic
import Mathlib.Data.List.Nodup

/-! The refresh of the extensions in a worker with one child process. -/

namespace Dvt.Extensions

open Library

inductive Phase
  | idle
  | draining
  | waitingForChild
  | stopping
  | killing
  | reloading
  | starting
  | failed
  deriving DecidableEq, Repr

def Phase.text : Phase → String
  | .idle => "idle"
  | .draining => "draining"
  | .waitingForChild => "waiting_for_child"
  | .stopping => "stopping"
  | .killing => "killing"
  | .reloading => "reloading"
  | .starting => "starting"
  | .failed => "failed"

structure Raised where
  name : String
  isValueError : Bool := false
  deriving DecidableEq, Repr

structure RawPool (κ : Type) where
  processes : ℤ
  children : List κ
  nodup : children.Nodup
  up : List κ
  isAlive : κ → Except Raised Bool
  cache : ℕ

/-- Without a pool the refresh raises AttributeError; times are in milliseconds. -/
structure World (ι κ : Type) where
  pool : Option ι
  pools : ι → RawPool κ
  done : ℕ → Bool
  now : ℕ

structure Calls (ι κ : Type) where
  cancelTaskQueue : String → World ι κ → Except Raised Unit × World ι κ
  selectAdd : String → World ι κ → Except Raised Unit × World ι κ
  addTaskQueue : String → World ι κ → Except Raised Unit × World ι κ
  callAfter : World ι κ → Except Raised Unit × World ι κ
  /-- The child that `shrink(1)` selects. -/
  shrink : World ι κ → Except Raised κ × World ι κ
  shrink_mem : ∀ world world' pool child, world.pool = some pool →
    shrink world = (.ok child, world') → child ∈ (world.pools pool).children
  grow : World ι κ → Except Raised Unit × World ι κ
  terminateJob : κ → World ι κ → Except Raised Unit × World ι κ
  submitReload : World ι κ → Except Raised ℕ × World ι κ
  cancel : ℕ → World ι κ → Except Raised Unit × World ι κ
  result : ℕ → World ι κ → Except Raised Bool × World ι κ
  onRefreshed : World ι κ → Except Raised Unit × World ι κ
  onFailure : String → World ι κ → Except Raised Unit × World ι κ

inductive Action (κ : Type)
  | shrunk (child : κ)
  | terminateJob (child : κ)
  | submitReload
  | reloaded
  | resume
  | onFailure (reason : String)
  deriving DecidableEq, Repr

structure History (ι κ : Type) where
  pool : ι
  actions : List (Action κ × World ι κ)

structure Refresh (ι κ : Type) where
  phase : Phase := .idle
  deadline : Option ℕ := none
  failure : Option String := none
  rawPool : Option ι := none
  reload : Option ℕ := none
  retiringChildren : List κ := []

structure State (ι κ : Type) where
  self : Refresh ι κ := {}
  world : World ι κ
  histories : List (History ι κ) := []

abbrev Run (ι κ : Type) := EStateM Raised (State ι κ)

def readyTimeout : ℕ := 30000
def exitTimeout : ℕ := 10000
def killTimeout : ℕ := 5000
def reloadTimeout : ℕ := 60000

section

variable {ι κ : Type} [DecidableEq ι] [DecidableEq κ]

def readyPoolChildren (raw : RawPool κ) : Except Raised (List κ) :=
  raw.children.filterM fun child => do return (← raw.isAlive child) && child ∈ raw.up

def external {α : Type} (call : World ι κ → Except Raised α × World ι κ) : Run ι κ α := fun s =>
  match call s.world with
  | (.ok a, world) => .ok a { s with world }
  | (.error raised, world) => .error raised { s with world }

def History.add (action : Action κ) (world : World ι κ) (history : History ι κ) : History ι κ :=
  { history with actions := history.actions ++ [(action, world)] }

def record (action : Action κ) : Run ι κ PUnit := modify fun s =>
  { s with histories := s.histories.modifyHead (History.add action s.world) }

def update (f : Refresh ι κ → Refresh ι κ) : Run ι κ PUnit := modify fun s => { s with self := f s.self }

def poolId : Run ι κ ι := do
  match (← get).world.pool with
  | some pool => return pool
  | none => throw ⟨"AttributeError", false⟩

def rawPool (pool : ι) : Run ι κ (RawPool κ) := do return (← get).world.pools pool

def readyChildren (pool : ι) : Run ι κ (List κ) := do
  match readyPoolChildren (← rawPool pool) with
  | .ok children => return children
  | .error raised => throw raised

def setPhase (phase : Phase) (timeout : Option ℕ) : Run ι κ PUnit := modify fun s =>
  { s with self.phase := phase, self.deadline := timeout.map (s.world.now + ·) }

def expired : Run ι κ Bool := do
  let s ← get
  return s.self.deadline.any (· ≤ s.world.now)

variable (calls : Calls ι κ) (queueNames : List String)

def resumeTaskQueues : Run ι κ PUnit := do
  record .resume
  queueNames.forM fun name => do
    external (calls.selectAdd name)
    external (calls.addTaskQueue name)

def cancelReload : Run ι κ PUnit := do
  match (← get).self.reload with
  | some future => external (calls.cancel future)
  | none => pure ()

def fail (reason : String) : Run ι κ PUnit := do
  update fun self => { self with failure := some reason }
  setPhase .failed none
  cancelReload calls
  let pool ← poolId
  let raw ← rawPool pool
  if raw.cache = 0 then
    record (.onFailure reason)
    external (calls.onFailure reason)

def onlyChildReady (pool : ι) : Run ι κ Bool := do
  let raw ← rawPool pool
  if raw.children.length ≠ 1 then return false
  else
    let ready ← readyChildren pool
    return ready = raw.children

def tryShrink : Run ι κ Bool := tryCatch (do
    let child ← external calls.shrink
    record (.shrunk child)
    return true)
  fun raised => if raised.isValueError then return false else throw raised

def waitForChild (pool : ι) : Run ι κ PUnit := do
  let raw ← rawPool pool
  if raw.processes ≠ 1 then fail calls "unexpected pool size before shrink"
  else
    let ready ← onlyChildReady pool
    if ready then
      let shrunk ← tryShrink calls
      if shrunk then
        update fun self => { self with retiringChildren := raw.children }
        setPhase .stopping (some exitTimeout)
      else
        let expired ← expired
        if expired then fail calls "idle pool could not shrink"
    else
      let expired ← expired
      if expired then fail calls "child did not become ready before shrink"

def terminateChild (pool : ι) (child : κ) : Run ι κ PUnit := do
  let raw ← rawPool pool
  match raw.isAlive child with
  | .error raised => throw raised
  | .ok alive =>
    if alive then
      record (.terminateJob child)
      external (calls.terminateJob child)

def stopChild (pool : ι) : Run ι κ PUnit := do
  let raw ← rawPool pool
  if raw.processes ≠ 0 then fail calls "pool grew before runtime reload"
  else if raw.children ≠ [] then
    let expired ← expired
    if expired then
      let self := (← get).self
      if self.phase = .killing then fail calls "idle child did not exit after SIGKILL"
      else if raw.children.any (· ∉ self.retiringChildren) then
        fail calls "unexpected replacement child while draining"
      else
        raw.children.forM (terminateChild calls pool)
        setPhase .killing (some killTimeout)
  else
    record .submitReload
    let future ← external calls.submitReload
    update fun self => { self with reload := some future }
    setPhase .reloading (some reloadTimeout)

def notifyRefreshed (changed : Bool) : Run ι κ PUnit :=
  if changed then external calls.onRefreshed else pure ()

def reloadRuntime (pool : ι) : Run ι κ PUnit := do
  match (← get).self.reload with
  | none => throw ⟨"AttributeError", false⟩
  | some future =>
    if (← get).world.done future then
      let changed ← external (calls.result future)
      record .reloaded
      notifyRefreshed calls changed
      update fun self => { self with reload := none }
      let raw ← rawPool pool
      if raw.processes ≠ 0 then fail calls "unexpected pool size after reload"
      else
        external calls.grow
        setPhase .starting (some readyTimeout)
    else
      let expired ← expired
      if expired then fail calls "extension runtime reload timed out"

def replacementReady (pool : ι) : Run ι κ Bool := do
  let raw ← rawPool pool
  if raw.processes ≠ 1 ∨ raw.children.length ≠ 1 then return false
  else
    let ready ← readyChildren pool
    return ready.length = 1

def startChild (pool : ι) : Run ι κ PUnit := do
  let ready ← replacementReady pool
  if ready then
    resumeTaskQueues calls queueNames
    update fun self => { self with retiringChildren := [] }
    setPhase .idle none
  else
    let expired ← expired
    if expired then fail calls "replacement child did not become ready"

def postpone : Run ι κ PUnit := modify fun s =>
  { s with
    self.deadline := s.self.deadline.map fun _ => s.world.now +
      (if s.self.phase = .killing then killTimeout
        else if s.self.phase = .stopping then exitTimeout else readyTimeout) }

def leaveDraining : Run ι κ PUnit := do
  if (← get).self.phase = .draining then setPhase .waitingForChild (some readyTimeout)

def advancePhase (pool : ι) : Run ι κ PUnit := do
  match (← get).self.phase with
  | .waitingForChild => waitForChild calls pool
  | .stopping => stopChild calls pool
  | .killing => stopChild calls pool
  | .reloading => reloadRuntime calls pool
  | .starting => startChild calls queueNames pool
  | _ => throw ⟨"KeyError", false⟩

def advance : Run ι κ PUnit := do
  let pool ← poolId
  if some pool ≠ (← get).self.rawPool then fail calls "pool replaced during refresh"
  else
    let raw ← rawPool pool
    if raw.cache ≠ 0 then postpone
    else if (← get).self.phase = .failed then
      let reason := ((← get).self.failure.filter (· ≠ "")).getD "refresh failed"
      record (.onFailure reason)
      external (calls.onFailure reason)
    else
      leaveDraining
      advancePhase calls queueNames pool

def tick : Run ι κ PUnit := do
  if (← get).self.phase ≠ .idle then
    tryCatch (advance calls queueNames) fun raised => do
      fail calls ((← get).self.phase.text ++ ": " ++ raised.name)
    if (← get).self.phase ≠ .idle then external calls.callAfter

def request : Run ι κ Bool := do
  if (← get).self.phase ≠ .idle then return false
  else
    let pool ← poolId
    update fun self => { self with rawPool := some pool, failure := none }
    modify fun s => { s with histories := ⟨pool, []⟩ :: s.histories }
    setPhase .draining none
    tryCatch (queueNames.forM fun name => external (calls.cancelTaskQueue name)) fun raised => do
      update fun self => { self with failure := some ("pausing queues: " ++ raised.name) }
      setPhase .failed none
    external calls.callAfter
    return true

end

inductive Op
  | request
  | tick

structure Step (ι κ : Type) where
  op : Op
  world : World ι κ
  calls : Calls ι κ

def Step.run {ι κ : Type} [DecidableEq ι] [DecidableEq κ] (queueNames : List String) (s : State ι κ)
    (step : Step ι κ) : State ι κ :=
  match step.op with
  | .request => endState (request step.calls queueNames { s with world := step.world })
  | .tick => endState (tick step.calls queueNames { s with world := step.world })

end Dvt.Extensions
