import OptionResearch.LockOrder
import Mathlib.Data.Nat.Cast.Basic
import Mathlib.Logic.Function.Basic

/-!
# The supervisor of the backend sidecar

The desktop shell keeps the process of its backend behind three mutexes. Its commands, the set-up
of the application and the handler of the exit event run on any threads and in any order; a turn
of a thread is what it does between two points where another thread can come between. Processes
are known by the order in which they were started, and may end at any time.

`restart_count` is locked before `child`, and `child` before `last_exit_code`: no order of turns
leaves the threads waiting for each other, and all of them return. Never more than three restarts
are counted. A process that was started is lost sight of only where two threads start one at a
time.
-/

namespace OptionResearch.Sidecar

open Running

/-- The mutexes of the shared state. -/
inductive SidecarLock where
  | restartCount
  | child
  | lastExitCode
  deriving DecidableEq

/-- What the mutexes protect. -/
structure SidecarState where
  child : Option ℕ
  restartCount : ℕ
  lastExitCode : Option ℤ

/-- The shared state, the thread each mutex belongs to, the number of processes that were started,
and how those that have ended did so. -/
structure World where
  state : SidecarState
  held : SidecarLock → Option ℕ
  started : ℕ
  exits : ℕ → Option (Option ℤ)

structure BackendStatus where
  available : Bool
  mode : String
  apiVersion : String
  protocolVersion : String
  startupPhase : String
  restartAvailable : Bool
  lastExitCode : Option ℤ
  deriving DecidableEq

/-- What the outside answers in a turn: whether the binary can be started, whether waiting for a
process fails, and the exit code of a process that the turn ends. -/
structure Answers where
  startSidecar : Except String Unit
  waitFails : Bool
  exitCode : Option ℤ

/-- How a thread has returned. -/
inductive Returned where
  | done
  | status (status : BackendStatus)
  | refused (reason : String)
  deriving DecidableEq

/-- Where a thread stands. -/
inductive Location where
  /-- The set-up, before it starts the process and before it stores it. -/
  | setupStart
  | setupStore (process : ℕ)
  /-- `backend_status`: before `child` is locked, before `try_wait`, around the exit code, before
  the child is taken, and at the two figures it reads at last. -/
  | statusLock
  | statusWait
  | statusLockExit (code : Option ℤ)
  | statusStoreExit (code : Option ℤ)
  | statusTake
  | statusCount (available : Bool)
  | statusExit (available : Bool) (restartCount : ℕ)
  /-- `restart_sidecar`: at its look at the child, before `restart_count` is locked and compared,
  before the process is started, counted and stored, and before `restart_count` is dropped. -/
  | restartCheck
  | restartLock
  | restartLimit
  | restartStart
  | restartIncrement (process : ℕ)
  | restartStore (process : ℕ)
  | restartUnlock
  /-- The exit event: before `child` is locked, and before the process is terminated. -/
  | exitLock
  | exitTerminate (process : ℕ)
  | returned (result : Returned)
  deriving DecidableEq

namespace World

/-- Nobody holds the mutex. -/
def free (world : World) (lock : SidecarLock) : Bool := (world.held lock).isNone

def lock (world : World) (thread : ℕ) (lock : SidecarLock) : World :=
  { world with held := Function.update world.held lock (some thread) }

def unlock (world : World) (lock : SidecarLock) : World :=
  { world with held := Function.update world.held lock none }

def setChild (world : World) (child : Option ℕ) : World :=
  { world with state := { world.state with child := child } }

def countRestart (world : World) : World :=
  { world with state := { world.state with restartCount := world.state.restartCount + 1 } }

def setLastExitCode (world : World) (code : Option ℤ) : World :=
  { world with state := { world.state with lastExitCode := code } }

/-- One more process runs. -/
def spawn (world : World) : World := { world with started := world.started + 1 }

/-- The process ends, if it has not ended before. -/
def exit (world : World) (process : ℕ) (code : Option ℤ) : World :=
  { world with exits :=
      Function.update world.exits process (some ((world.exits process).getD code)) }

section Fields

variable (world : World) (thread process : ℕ) (mutex : SidecarLock) (child : Option ℕ)
  (code : Option ℤ)

@[simp] theorem held_lock :
    (world.lock thread mutex).held = Function.update world.held mutex (some thread) := rfl
@[simp] theorem held_unlock :
    (world.unlock mutex).held = Function.update world.held mutex none := rfl
@[simp] theorem held_setChild : (world.setChild child).held = world.held := rfl
@[simp] theorem held_countRestart : world.countRestart.held = world.held := rfl
@[simp] theorem held_setLastExitCode : (world.setLastExitCode code).held = world.held := rfl
@[simp] theorem held_spawn : world.spawn.held = world.held := rfl
@[simp] theorem held_exit : (world.exit process code).held = world.held := rfl

@[simp] theorem state_lock : (world.lock thread mutex).state = world.state := rfl
@[simp] theorem state_unlock : (world.unlock mutex).state = world.state := rfl
@[simp] theorem state_spawn : world.spawn.state = world.state := rfl
@[simp] theorem state_exit : (world.exit process code).state = world.state := rfl

@[simp] theorem child_setChild : (world.setChild child).state.child = child := rfl
@[simp] theorem child_countRestart : world.countRestart.state.child = world.state.child := rfl
@[simp] theorem child_setLastExitCode :
    (world.setLastExitCode code).state.child = world.state.child := rfl

@[simp] theorem restartCount_setChild :
    (world.setChild child).state.restartCount = world.state.restartCount := rfl
@[simp] theorem restartCount_countRestart :
    world.countRestart.state.restartCount = world.state.restartCount + 1 := rfl
@[simp] theorem restartCount_setLastExitCode :
    (world.setLastExitCode code).state.restartCount = world.state.restartCount := rfl

@[simp] theorem started_lock : (world.lock thread mutex).started = world.started := rfl
@[simp] theorem started_unlock : (world.unlock mutex).started = world.started := rfl
@[simp] theorem started_setChild : (world.setChild child).started = world.started := rfl
@[simp] theorem started_countRestart : world.countRestart.started = world.started := rfl
@[simp] theorem started_setLastExitCode :
    (world.setLastExitCode code).started = world.started := rfl
@[simp] theorem started_spawn : world.spawn.started = world.started + 1 := rfl
@[simp] theorem started_exit : (world.exit process code).started = world.started := rfl

@[simp] theorem exits_lock : (world.lock thread mutex).exits = world.exits := rfl
@[simp] theorem exits_unlock : (world.unlock mutex).exits = world.exits := rfl
@[simp] theorem exits_setChild : (world.setChild child).exits = world.exits := rfl
@[simp] theorem exits_countRestart : world.countRestart.exits = world.exits := rfl
@[simp] theorem exits_setLastExitCode : (world.setLastExitCode code).exits = world.exits := rfl
@[simp] theorem exits_spawn : world.spawn.exits = world.exits := rfl
@[simp] theorem exits_exit : (world.exit process code).exits =
    Function.update world.exits process (some ((world.exits process).getD code)) := rfl

end Fields

end World

/-- What `backend_status` returns. -/
def backendStatus (available : Bool) (restartCount : ℕ) (lastExitCode : Option ℤ) :
    BackendStatus where
  available := available
  mode := if available then "local_backend_offline" else "degraded_backend"
  apiVersion := "v1"
  protocolVersion := "1"
  startupPhase := if available then "ready" else "process_stopped"
  restartAvailable := !available && decide (restartCount < 3)
  lastExitCode := lastExitCode

/-- One turn of a thread; `none` where it waits for a mutex or has returned. -/
def advance (thread : ℕ) (answers : Answers) (world : World) :
    Location → Option (World × Location)
  | .setupStart =>
      match answers.startSidecar with
      | .error reason => some (world, .returned (.refused reason))
      | .ok () => some (world.spawn, .setupStore world.started)
  | .setupStore process =>
      if world.free .child then some (world.setChild (some process), .returned .done) else none
  | .statusLock => if world.free .child then some (world.lock thread .child, .statusWait) else none
  | .statusWait =>
      match world.state.child with
      | none => some (world.unlock .child, .statusCount false)
      | some process =>
          if answers.waitFails then some ((world.setChild none).unlock .child, .statusCount false)
          else match world.exits process with
            | none => some (world.unlock .child, .statusCount true)
            | some code => some (world, .statusLockExit code)
  | .statusLockExit code =>
      if world.free .lastExitCode then some (world.lock thread .lastExitCode, .statusStoreExit code)
      else none
  | .statusStoreExit code =>
      some ((world.setLastExitCode code).unlock .lastExitCode, .statusTake)
  | .statusTake => some ((world.setChild none).unlock .child, .statusCount false)
  | .statusCount available =>
      if world.free .restartCount then some (world, .statusExit available world.state.restartCount)
      else none
  | .statusExit available restartCount =>
      if world.free .lastExitCode then
        some (world, .returned (.status
          (backendStatus available restartCount world.state.lastExitCode)))
      else none
  | .restartCheck =>
      if world.free .child then
        if world.state.child.isSome then
          some (world, .returned (.refused "Backend sidecar is already running"))
        else some (world, .restartLock)
      else none
  | .restartLock =>
      if world.free .restartCount then some (world.lock thread .restartCount, .restartLimit)
      else none
  | .restartLimit =>
      if 3 ≤ world.state.restartCount then
        some (world.unlock .restartCount, .returned
          (.refused "Backend restart limit reached; diagnostic recovery is required"))
      else some (world, .restartStart)
  | .restartStart =>
      match answers.startSidecar with
      | .error reason => some (world.unlock .restartCount, .returned (.refused reason))
      | .ok () => some (world.spawn, .restartIncrement world.started)
  | .restartIncrement process => some (world.countRestart, .restartStore process)
  | .restartStore process =>
      if world.free .child then some (world.setChild (some process), .restartUnlock) else none
  | .restartUnlock => some (world.unlock .restartCount, .statusLock)
  | .exitLock =>
      if world.free .child then
        match world.state.child with
        | none => some (world, .returned .done)
        | some process => some ((world.setChild none).lock thread .child, .exitTerminate process)
      else none
  | .exitTerminate process =>
      some ((world.exit process answers.exitCode).unlock .child, .returned .done)
  | .returned _ => none

/-- What can be called at any time: `backend_status`, `restart_sidecar`, and the exit event. -/
inductive Command where
  | backendStatus
  | restartSidecar
  | exitRequested
  deriving DecidableEq

/-- Where the thread of a command begins. -/
def Command.entry : Command → Location
  | .backendStatus => .statusLock
  | .restartSidecar => .restartCheck
  | .exitRequested => .exitLock

/-- A command arrives on a thread of its own, a thread takes a turn, or a process ends. -/
inductive Event where
  | arrive (command : Command)
  | turn (thread : ℕ) (answers : Answers)
  | exited (process : ℕ) (code : Option ℤ)

/-- The shell with its threads. -/
abbrev Shell := Running World Location

/-- The shell at its launch: only the set-up is under way. -/
def launch : Shell where
  shared :=
    { state := ⟨none, 0, none⟩, held := fun _ => none, started := 0, exits := fun _ => none }
  threads := [.setupStart]

def step (shell : Shell) : Event → Option Shell
  | .arrive command => some ⟨shell.shared, shell.threads ++ [command.entry]⟩
  | .turn thread answers => shell.move advance thread answers
  | .exited process code =>
      if process < shell.shared.started then some ⟨shell.shared.exit process code, shell.threads⟩
      else none

/-- The shell after a run of events. -/
def run (shell : Shell) (events : List Event) : Option Shell := events.foldlM step shell

/-! ### The order of the locks -/

namespace Location

/-- The mutexes whose guards are alive at a place. -/
def holds : Location → SidecarLock → Bool
  | .statusWait, .child | .statusLockExit _, .child | .statusTake, .child => true
  | .statusStoreExit _, .child | .statusStoreExit _, .lastExitCode => true
  | .restartLimit, .restartCount | .restartStart, .restartCount => true
  | .restartIncrement _, .restartCount | .restartStore _, .restartCount => true
  | .restartUnlock, .restartCount => true
  | .exitTerminate _, .child => true
  | _, _ => false

/-- The mutex that the next turn locks. -/
def wants : Location → Option SidecarLock
  | .setupStore _ | .statusLock | .restartCheck | .restartStore _ | .exitLock => some .child
  | .statusLockExit _ | .statusExit _ _ => some .lastExitCode
  | .statusCount _ | .restartLock => some .restartCount
  | _ => none

def isReturned : Location → Bool
  | .returned _ => true
  | _ => false

/-- The turns that are left at most. -/
def remaining : Location → ℕ
  | .setupStart => 2
  | .setupStore _ => 1
  | .statusLock => 7
  | .statusWait => 6
  | .statusLockExit _ => 5
  | .statusStoreExit _ => 4
  | .statusTake => 3
  | .statusCount _ => 2
  | .statusExit _ _ => 1
  | .restartCheck => 14
  | .restartLock => 13
  | .restartLimit => 12
  | .restartStart => 11
  | .restartIncrement _ => 10
  | .restartStore _ => 9
  | .restartUnlock => 8
  | .exitLock => 2
  | .exitTerminate _ => 1
  | .returned _ => 0

theorem remaining_le (place : Location) : place.remaining ≤ 14 := by
  cases place <;> simp [remaining]

end Location

/-- The order in which the mutexes are locked. -/
def SidecarLock.rank : SidecarLock → ℕ
  | .restartCount => 0
  | .child => 1
  | .lastExitCode => 2

variable {thread : ℕ} {answers : Answers} {world world' : World} {place next : Location}

theorem free_iff {lock : SidecarLock} : world.free lock = true ↔ world.held lock = none := by
  rw [World.free, Option.isNone_iff_eq_none]

theorem waits_of_advance_eq_none (h : advance thread answers world place = none) :
    place.isReturned = true ∨ ∃ lock, place.wants = some lock ∧ world.held lock ≠ none := by
  revert h
  fun_cases advance thread answers world place <;>
    simp_all [Location.isReturned, Location.wants, ← free_iff]

theorem advance_takes (h : advance thread answers world place = some (world', next)) :
    ∀ lock, place.holds lock = false → next.holds lock = true → world.held lock = none := by
  revert h
  fun_cases advance thread answers world place <;> rintro ⟨⟩ lock <;> cases lock <;>
    simp_all [Location.holds, free_iff]

theorem advance_passes (h : advance thread answers world place = some (world', next)) :
    ∀ lock, world'.held lock =
      if next.holds lock then if place.holds lock then world.held lock else some thread
      else if place.holds lock then none else world.held lock := by
  revert h
  fun_cases advance thread answers world place <;> rintro ⟨⟩ lock <;> cases lock <;>
    simp_all [Location.holds, free_iff]

theorem advance_remaining (h : advance thread answers world place = some (world', next)) :
    next.remaining < place.remaining := by
  revert h
  fun_cases advance thread answers world place <;> rintro ⟨⟩ <;> simp [Location.remaining]

/-- The mutexes of the shell, in the order in which its threads lock them. -/
def sidecarLocking : Locking advance SidecarLock where
  held := World.held
  holds := Location.holds
  wants := Location.wants
  returned := Location.isReturned
  rank := SidecarLock.rank
  waits := waits_of_advance_eq_none
  takes := advance_takes
  passes := advance_passes
  ordered := by
    intro place lock lock' hwants hholds
    cases place <;> cases hwants <;> cases lock' <;> first | decide | cases hholds
  free := by
    intro place lock hreturned
    cases place <;> first | (cases lock <;> rfl) | cases hreturned

variable {shell shell' : Shell} {event : Event} {events : List Event}

/-- What every event keeps holds after every run. -/
theorem run_keeps {P : Shell → Prop}
    (hstep : ∀ shell event shell', P shell → step shell event = some shell' → P shell')
    (hP : P shell) (h : run shell events = some shell') : P shell' := by
  induction events generalizing shell with
  | nil =>
      cases h
      exact hP
  | cons event rest ih =>
      rw [run, List.foldlM_cons, Option.bind_eq_bind, Option.bind_eq_some_iff] at h
      obtain ⟨middle, hmiddle, hrest⟩ := h
      exact ih (hstep shell event middle hP hmiddle) hrest

theorem step_exited {process : ℕ} {code : Option ℤ}
    (h : step shell (.exited process code) = some shell') :
    process < shell.shared.started ∧ shell' = ⟨shell.shared.exit process code, shell.threads⟩ := by
  rw [step] at h
  split at h
  · exact ⟨‹_›, (Option.some.inj h).symm⟩
  · cases h

theorem kept_launch : sidecarLocking.Kept launch := by
  intro lock thread
  constructor
  · intro h
    cases h
  · rintro ⟨place, hplace, hholds⟩
    obtain ⟨rfl, -⟩ | h : place = .setupStart ∧ thread = 0 ∨ False := by
      cases thread with
      | zero => exact .inl ⟨(Option.some.inj hplace).symm, rfl⟩
      | succ _ => cases hplace
    · cases hholds
    · exact h.elim

theorem kept_step (hkept : sidecarLocking.Kept shell) (h : step shell event = some shell') :
    sidecarLocking.Kept shell' := by
  cases event with
  | arrive command =>
      cases h
      exact hkept.arrive fun lock => by cases command <;> rfl
  | turn thread answers => exact hkept.move h
  | exited process code =>
      obtain ⟨-, rfl⟩ := step_exited h
      exact hkept.of_held rfl

theorem kept_run (h : run launch events = some shell) : sidecarLocking.Kept shell :=
  run_keeps (fun _ _ _ => kept_step) kept_launch h

/-- Two threads never hold the same mutex. -/
theorem holder_unique (hkept : sidecarLocking.Kept shell) {lock : SidecarLock}
    {thread other : ℕ} {place place' : Location} (hthread : shell.threads[thread]? = some place)
    (hother : shell.threads[other]? = some place') (hholds : place.holds lock = true)
    (hholds' : place'.holds lock = true) : thread = other := by
  have hheld := (hkept lock thread).mpr ⟨place, hthread, hholds⟩
  have hheld' := (hkept lock other).mpr ⟨place', hother, hholds'⟩
  exact Option.some.inj (hheld.symm.trans hheld')

/-- Whatever commands are under way, in whatever order their turns come: as long as one has not
returned some thread can take its turn, and after at most fourteen turns a thread all have
returned. -/
theorem threads_return {turns : List (ℕ × Answers)} (h : run launch events = some shell)
    (hturns : shell.moves advance turns = some shell') :
    turns.length ≤ 14 * shell.threads.length ∧
      ((∃ place ∈ shell'.threads, place.isReturned = false) →
        ∃ thread, ∀ answers, ∃ shell'', shell'.move advance thread answers = some shell'') := by
  have hkept : sidecarLocking.Kept shell' := by
    have hrun : run shell (turns.map fun next => .turn next.1 next.2) = some shell' := by
      rw [run, List.foldlM_map]
      exact hturns
    exact run_keeps (fun _ _ _ => kept_step) (kept_run h) hrun
  constructor
  · have hle := length_moves_le advance_remaining hturns
    have hsum : shell.turnsLeft Location.remaining ≤ 14 * shell.threads.length := by
      have hcard := List.sum_le_card_nsmul (shell.threads.map Location.remaining) 14 (by
        intro turns hturns
        obtain ⟨place, -, rfl⟩ := List.mem_map.mp hturns
        exact place.remaining_le)
      rw [List.length_map, nsmul_eq_mul, Nat.cast_id, mul_comm] at hcard
      exact hcard
    omega
  · intro hwork
    obtain ⟨thread, place, -, -, hmove⟩ := hkept.exists_move hwork
    exact ⟨thread, hmove⟩

theorem threads_return_setUp :
    [(0, (⟨.ok (), false, none⟩ : Answers))].length ≤ 14 * 2 ∧
      ((∃ place ∈ [Location.setupStore 0, .restartCheck], place.isReturned = false) →
        ∃ thread, ∀ answers, ∃ shell'',
          (⟨launch.shared.spawn, [.setupStore 0, .restartCheck]⟩ : Shell).move advance
            thread answers = some shell'') :=
  @threads_return ⟨launch.shared, [.setupStart, .restartCheck]⟩
    ⟨launch.shared.spawn, [.setupStore 0, .restartCheck]⟩ [.arrive .restartSidecar] _ rfl rfl

end OptionResearch.Sidecar
