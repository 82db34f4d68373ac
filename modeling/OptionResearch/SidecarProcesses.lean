import OptionResearch.SidecarSupervisor
import Mathlib.Tactic.Common

/-!
# The processes of the sidecar

The limit on restarts holds in every order of turns, because the thread that has compared the count
keeps its mutex until it has counted. That no process is lost sight of is weaker: `restart_sidecar`
lets go of `child` between its look and its store, so this needs that no two threads start a
process at the same time.
-/

namespace OptionResearch.Sidecar

open Running

namespace Location

/-- The thread has found the count below the limit and has not counted yet. -/
def underLimit : Location → Bool
  | .restartStart | .restartIncrement _ => true
  | _ => false

/-- A process was started by a restart and not counted yet. -/
def uncounted : Location → ℕ
  | .restartIncrement _ => 1
  | _ => 0

/-- The set-up has not started its process. -/
def settingUp : Location → ℕ
  | .setupStart => 1
  | _ => 0

theorem holds_of_underLimit {place : Location} (h : place.underLimit = true) :
    place.holds .restartCount = true := by
  cases place <;> first | rfl | cases h

theorem uncounted_eq_zero {place : Location} (h : place.underLimit = false) :
    place.uncounted = 0 := by
  cases place <;> first | rfl | cases h

end Location

section Turns

variable {thread : ℕ} {answers : Answers} {world world' : World} {place next : Location}

theorem advance_restartCount (h : advance thread answers world place = some (world', next)) :
    world'.state.restartCount = world.state.restartCount + place.uncounted := by
  revert h
  fun_cases advance thread answers world place <;> rintro ⟨⟩ <;> simp [Location.uncounted]

/-- Where a process is started: in the set-up, or by a restart that then has to count it. -/
theorem advance_starts (h : advance thread answers world place = some (world', next)) :
    next.settingUp = 0 ∧ (world'.started = world.started ∧ next.uncounted = 0 ∨
      world'.started = world.started + 1 ∧ place.uncounted = 0 ∧
        (place.settingUp = 1 ∧ next.uncounted = 0 ∨
          place = .restartStart ∧ place.settingUp = 0 ∧ next.uncounted = 1)) := by
  revert h
  fun_cases advance thread answers world place <;> rintro ⟨⟩ <;>
    simp [Location.uncounted, Location.settingUp]

theorem advance_underLimit (h : advance thread answers world place = some (world', next))
    (hlimit : next.underLimit = true) :
    place.uncounted = 0 ∧ (place.underLimit = true ∨ world.state.restartCount < 3) := by
  revert h
  fun_cases advance thread answers world place <;> rintro ⟨⟩ <;>
    simp_all [Location.uncounted, Location.underLimit]

end Turns

variable {shell shell' : Shell} {event : Event} {events : List Event}

/-- What the mutex on the count protects. -/
structure Counted (shell : Shell) : Prop where
  kept : sidecarLocking.Kept shell
  below : ∀ {thread : ℕ} {place : Location}, shell.threads[thread]? = some place → place.underLimit = true →
    shell.shared.state.restartCount < 3
  limit : shell.shared.state.restartCount + (shell.threads.map Location.uncounted).sum ≤ 3
  restarts : shell.shared.state.restartCount + (shell.threads.map Location.uncounted).sum ≤
    shell.shared.started
  setUp : shell.shared.started + (shell.threads.map Location.settingUp).sum ≤
    shell.shared.state.restartCount + (shell.threads.map Location.uncounted).sum + 1

/-- While a thread stands before its start, no other thread has a process to count. -/
theorem Counted.sum_uncounted (h : Counted shell) {thread : ℕ}
    (hthread : shell.threads[thread]? = some .restartStart) :
    (shell.threads.map Location.uncounted).sum = 0 := by
  apply List.sum_eq_zero
  intro count hcount
  obtain ⟨place, hplace, rfl⟩ := List.mem_map.mp hcount
  obtain ⟨other, hother⟩ := List.mem_iff_getElem?.mp hplace
  cases hlimit : place.underLimit with
  | false => exact Location.uncounted_eq_zero hlimit
  | true =>
      obtain rfl := holder_unique h.kept hthread hother rfl (Location.holds_of_underLimit hlimit)
      obtain rfl : .restartStart = place := Option.some.inj (hthread.symm.trans hother)
      rfl

theorem Counted.move {thread : ℕ} {answers : Answers} (h : Counted shell)
    (hmove : shell.move advance thread answers = some shell') : Counted shell' := by
  have hkept := h.kept.move hmove
  obtain ⟨place, world, next, hplace, hturn, rfl⟩ := move_eq_some_iff.mp hmove
  have hcount := advance_restartCount hturn
  obtain ⟨hsettled, hstarts⟩ := advance_starts hturn
  have huncounted := sum_map_set Location.uncounted hplace next
  have hsetup := sum_map_set Location.settingUp hplace next
  have hlimit := h.limit
  have hrestarts := h.restarts
  have hsetUp := h.setUp
  refine ⟨hkept, ?_, ?_, ?_, ?_⟩
  · intro other place' hother hunder
    have hlt : thread < shell.threads.length := (List.getElem?_eq_some_iff.mp hplace).1
    by_cases heq : thread = other
    · subst heq
      rw [List.getElem?_set_self hlt] at hother
      obtain rfl : next = place' := Option.some.inj hother
      obtain ⟨hzero, hbelow⟩ := advance_underLimit hturn hunder
      rw [hcount, hzero]
      exact hbelow.elim (h.below hplace) id
    · rw [List.getElem?_set_ne heq] at hother
      -- the other thread holds the mutex, so this one is not about to count
      have hzero : place.uncounted = 0 := by
        cases hthis : place.underLimit with
        | false => exact Location.uncounted_eq_zero hthis
        | true =>
            exact absurd (holder_unique h.kept hplace hother (Location.holds_of_underLimit hthis)
              (Location.holds_of_underLimit hunder)) heq
      rw [hcount, hzero]
      exact h.below hother hunder
  · rcases hstarts with ⟨-, hnext⟩ | ⟨-, hplaced, ⟨-, hnext⟩ | ⟨rfl, -, hnext⟩⟩
    · simp only
      omega
    · simp only
      omega
    · have hsum := h.sum_uncounted hplace
      have hbelow := h.below hplace rfl
      simp only
      omega
  · rcases hstarts with ⟨hsame, hnext⟩ | ⟨hmore, hplaced, ⟨-, hnext⟩ | ⟨-, -, hnext⟩⟩ <;>
      simp only <;> omega
  · rcases hstarts with ⟨hsame, hnext⟩ | ⟨hmore, hplaced, ⟨hset, hnext⟩ | ⟨-, hset, hnext⟩⟩ <;>
      simp only <;> omega

theorem counted_launch : Counted launch where
  kept := kept_launch
  below := by
    intro thread place hplace hunder
    exact Nat.zero_lt_succ _
  limit := by decide
  restarts := by decide
  setUp := by decide

theorem counted_step (h : Counted shell) (hstep : step shell event = some shell') :
    Counted shell' := by
  cases event with
  | turn thread answers => exact h.move hstep
  | exited process code =>
      have hkept := kept_step h.kept hstep
      obtain ⟨-, rfl⟩ := step_exited hstep
      exact ⟨hkept, h.below, h.limit, h.restarts, h.setUp⟩
  | arrive command =>
      have hkept := kept_step h.kept hstep
      cases hstep
      refine ⟨hkept, ?_, ?_, ?_, ?_⟩
      · intro thread place hplace hunder
        rcases Nat.lt_or_ge thread shell.threads.length with hlt | hge
        · rw [List.getElem?_append_left hlt] at hplace
          exact h.below hplace hunder
        · rw [List.getElem?_append_right hge, List.getElem?_singleton] at hplace
          split at hplace
          · obtain rfl := Option.some.inj hplace
            cases command <;> cases hunder
          · cases hplace
      · have hlimit := h.limit
        cases command <;> simpa [Command.entry, Location.uncounted] using hlimit
      · have hrestarts := h.restarts
        cases command <;> simpa [Command.entry, Location.uncounted] using hrestarts
      · have hsetUp := h.setUp
        cases command <;>
          simpa [Command.entry, Location.uncounted, Location.settingUp] using hsetUp

namespace Location

/-- The thread may still start a process, or has one to store. -/
def starting : Location → Bool
  | .setupStart | .setupStore _ => true
  | .restartCheck | .restartLock | .restartLimit | .restartStart => true
  | .restartIncrement _ | .restartStore _ => true
  | _ => false

/-- The thread has a process that `child` does not. -/
def carries : Location → Option ℕ
  | .setupStore process | .restartIncrement process | .restartStore process => some process
  | .exitTerminate process => some process
  | _ => none

/-- The thread has found that the process in `child` has ended. -/
def waited : Location → Bool
  | .statusLockExit _ | .statusStoreExit _ | .statusTake => true
  | _ => false

theorem holds_of_waited {place : Location} (h : place.waited = true) :
    place.holds .child = true := by
  cases place <;> first | rfl | cases h

end Location

section Turns

variable {thread : ℕ} {answers : Answers} {world world' : World} {place next : Location}
  {process : ℕ}

theorem advance_starting (h : advance thread answers world place = some (world', next))
    (hstarting : next.starting = true) : place.starting = true := by
  revert h
  fun_cases advance thread answers world place <;> rintro ⟨⟩ <;> simp_all [Location.starting]

/-- A thread goes on to start a process where it has found none. -/
theorem advance_unset (h : advance thread answers world place = some (world', next))
    (hstarting : next.starting = true) :
    world'.state.child = world.state.child ∧
      (place = .restartCheck → world.state.child = none) ∧ next ≠ .restartCheck := by
  revert h
  fun_cases advance thread answers world place <;> rintro ⟨⟩ <;> simp_all [Location.starting]

theorem advance_exits (h : advance thread answers world place = some (world', next))
    (hexits : (world.exits process).isSome = true) : (world'.exits process).isSome = true := by
  revert h
  fun_cases advance thread answers world place <;> rintro ⟨⟩ <;> try exact hexits
  rename_i ended
  by_cases heq : process = ended
  · simp [heq]
  · simpa [heq] using hexits

theorem advance_started (h : advance thread answers world place = some (world', next))
    (hlt : process < world'.started) : process < world.started ∨ next.carries = some process := by
  revert h
  fun_cases advance thread answers world place <;> rintro ⟨⟩ <;>
    simp_all [Location.carries] <;> omega

theorem advance_carries (h : advance thread answers world place = some (world', next))
    (hcarries : place.carries = some process) :
    next.carries = some process ∨ world'.state.child = some process ∨
      (world'.exits process).isSome = true := by
  revert h
  fun_cases advance thread answers world place <;> rintro ⟨⟩ <;> simp_all [Location.carries]

/-- A process leaves `child` where a thread carries it off, has found it ended, or stores another. -/
theorem advance_child (h : advance thread answers world place = some (world', next))
    (hwait : answers.waitFails = false) (hchild : world.state.child = some process) :
    world'.state.child = some process ∨ next.carries = some process ∨ place.waited = true ∨
      place.starting = true ∧ place ≠ .restartCheck := by
  revert h
  fun_cases advance thread answers world place <;> rintro ⟨⟩ <;>
    simp_all [Location.carries, Location.waited, Location.starting]

theorem advance_stores (h : advance thread answers world place = some (world', next))
    (hchild : world'.state.child ≠ none) (hstarting : place.starting = false) :
    world.state.child ≠ none := by
  revert h
  fun_cases advance thread answers world place <;> rintro ⟨⟩ <;> simp_all [Location.starting]

theorem advance_waited (h : advance thread answers world place = some (world', next))
    (hwaited : next.waited = true) :
    world'.state.child = world.state.child ∧ (place.waited = true ∨
      ∃ process, world.state.child = some process ∧ (world.exits process).isSome = true) := by
  revert h
  fun_cases advance thread answers world place <;> rintro ⟨⟩ <;> simp_all [Location.waited]

/-- Only a thread that has its mutex writes `child`. -/
theorem advance_child_held (h : advance thread answers world place = some (world', next))
    (hchild : world'.state.child ≠ world.state.child) :
    place.holds .child = true ∨ world.held .child = none := by
  revert h
  fun_cases advance thread answers world place <;> rintro ⟨⟩ <;>
    simp_all [Location.holds, free_iff]

end Turns

/-- Every process that was started has ended, is the one in `child`, or is carried by a thread. -/
def Known (shell : Shell) : Prop :=
  ∀ process < shell.shared.started, (shell.shared.exits process).isSome = true ∨
    shell.shared.state.child = some process ∨
      ∃ place ∈ shell.threads, place.carries = some process

/-- What holds as long as threads start processes one at a time. -/
structure Accounted (shell : Shell) : Prop where
  kept : sidecarLocking.Kept shell
  alone : ∀ {thread other : ℕ} {place place' : Location}, shell.threads[thread]? = some place →
    shell.threads[other]? = some place' → place.starting = true → place'.starting = true →
    thread = other
  unset : ∀ {thread : ℕ} {place : Location}, shell.threads[thread]? = some place →
    place.starting = true → place ≠ .restartCheck → shell.shared.state.child = none
  waited : ∀ {thread : ℕ} {place : Location}, shell.threads[thread]? = some place →
    place.waited = true → ∃ process, shell.shared.state.child = some process ∧
      (shell.shared.exits process).isSome = true
  known : Known shell

/-- The place of a thread after another, or this one, has moved. -/
theorem place_of_set {threads : List Location} {thread other : ℕ} {place next place' : Location}
    (hthread : threads[thread]? = some place)
    (h : (threads.set thread next)[other]? = some place') :
    thread = other ∧ next = place' ∨ thread ≠ other ∧ threads[other]? = some place' := by
  by_cases heq : thread = other
  · subst heq
    rw [List.getElem?_set_self (List.getElem?_eq_some_iff.mp hthread).1] at h
    exact .inl ⟨rfl, Option.some.inj h⟩
  · rw [List.getElem?_set_ne heq] at h
    exact .inr ⟨heq, h⟩

theorem Accounted.known_move {thread : ℕ} {answers : Answers} {place next : Location}
    {world : World} (h : Accounted shell) (hwait : answers.waitFails = false)
    (hplace : shell.threads[thread]? = some place)
    (hturn : advance thread answers shell.shared place = some (world, next)) :
    Known ⟨world, shell.threads.set thread next⟩ := by
  have hlt : thread < shell.threads.length := (List.getElem?_eq_some_iff.mp hplace).1
  have hnext : next ∈ shell.threads.set thread next := List.mem_set hlt next
  intro process hprocess
  rcases advance_started hturn hprocess with hbefore | hcarries
  · rcases h.known process hbefore with hexits | hchild | ⟨place', hmem, hcarries⟩
    · exact .inl (advance_exits hturn hexits)
    · rcases advance_child hturn hwait hchild with hsame | hcarries | hwaited | ⟨hstarting, hne⟩
      · exact .inr (.inl hsame)
      · exact .inr (.inr ⟨next, hnext, hcarries⟩)
      · obtain ⟨ended, hended, hexits⟩ := h.waited hplace hwaited
        obtain rfl : process = ended := Option.some.inj (hchild.symm.trans hended)
        exact .inl (advance_exits hturn hexits)
      · rw [h.unset hplace hstarting hne] at hchild
        cases hchild
    · obtain ⟨other, hother⟩ := List.mem_iff_getElem?.mp hmem
      by_cases heq : thread = other
      · subst heq
        obtain rfl : place = place' := Option.some.inj (hplace.symm.trans hother)
        rcases advance_carries hturn hcarries with hnow | hchild | hexits
        · exact .inr (.inr ⟨next, hnext, hnow⟩)
        · exact .inr (.inl hchild)
        · exact .inl hexits
      · refine .inr (.inr ⟨place', List.mem_of_getElem? (i := other) ?_, hcarries⟩)
        rw [List.getElem?_set_ne heq]
        exact hother
  · exact .inr (.inr ⟨next, hnext, hcarries⟩)

theorem Accounted.move {thread : ℕ} {answers : Answers} (h : Accounted shell)
    (hwait : answers.waitFails = false)
    (hmove : shell.move advance thread answers = some shell') : Accounted shell' := by
  have hkept := h.kept.move hmove
  obtain ⟨place, world, next, hplace, hturn, rfl⟩ := move_eq_some_iff.mp hmove
  refine ⟨hkept, ?_, ?_, ?_, h.known_move hwait hplace hturn⟩
  · intro one other place₁ place₂ hone hother hstarting₁ hstarting₂
    rcases place_of_set hplace hone with ⟨rfl, rfl⟩ | ⟨-, hone⟩ <;>
      rcases place_of_set hplace hother with ⟨rfl, rfl⟩ | ⟨-, hother⟩
    · rfl
    · exact h.alone hplace hother (advance_starting hturn hstarting₁) hstarting₂
    · exact h.alone hone hplace hstarting₁ (advance_starting hturn hstarting₂)
    · exact h.alone hone hother hstarting₁ hstarting₂
  · intro other place' hother hstarting hne
    rcases place_of_set hplace hother with ⟨rfl, rfl⟩ | ⟨hdiffer, hother⟩
    · obtain ⟨hsame, hcheck, -⟩ := advance_unset hturn hstarting
      simp only
      rw [hsame]
      by_cases hfirst : place = .restartCheck
      · exact hcheck hfirst
      · exact h.unset hplace (advance_starting hturn hstarting) hfirst
    · have hunset := h.unset hother hstarting hne
      by_contra hchild
      have hnot : place.starting = false := by
        cases hthis : place.starting with
        | false => rfl
        | true => exact absurd (h.alone hplace hother hthis hstarting) hdiffer
      exact advance_stores hturn hchild hnot hunset
  · intro other place' hother hwaited
    rcases place_of_set hplace hother with ⟨rfl, rfl⟩ | ⟨hdiffer, hother⟩
    · obtain ⟨hsame, hfound⟩ := advance_waited hturn hwaited
      obtain ⟨process, hchild, hexits⟩ := hfound.elim (h.waited hplace) id
      exact ⟨process, hsame.trans hchild, advance_exits hturn hexits⟩
    · obtain ⟨process, hchild, hexits⟩ := h.waited hother hwaited
      refine ⟨process, ?_, advance_exits hturn hexits⟩
      by_contra hchanged
      have hheld := (h.kept .child other).mpr ⟨place', hother, Location.holds_of_waited hwaited⟩
      rcases advance_child_held hturn (fun heq => hchanged (heq.trans hchild)) with hholds | hfree
      · exact hdiffer (holder_unique h.kept hplace hother hholds
          (Location.holds_of_waited hwaited))
      · rw [show sidecarLocking.held shell.shared .child = none from hfree] at hheld
        cases hheld

theorem Accounted.exited {process : ℕ} {code : Option ℤ} (h : Accounted shell)
    (hstep : step shell (.exited process code) = some shell') : Accounted shell' := by
  have hkept := kept_step h.kept hstep
  obtain ⟨-, rfl⟩ := step_exited hstep
  have hexits : ∀ other, (shell.shared.exits other).isSome = true →
      ((shell.shared.exit process code).exits other).isSome = true := by
    intro other hother
    by_cases heq : other = process
    · simp [heq]
    · simpa [heq] using hother
  refine ⟨hkept, h.alone, h.unset, ?_, ?_⟩
  · intro thread place hplace hwaited
    obtain ⟨ended, hchild, hended⟩ := h.waited hplace hwaited
    exact ⟨ended, hchild, hexits ended hended⟩
  · intro other hother
    exact (h.known other hother).imp (hexits other) id

theorem place_of_arrive {threads : List Location} {entry place : Location} {thread : ℕ}
    (h : (threads ++ [entry])[thread]? = some place) :
    threads[thread]? = some place ∨ thread = threads.length ∧ place = entry := by
  rcases Nat.lt_or_ge thread threads.length with hlt | hge
  · rw [List.getElem?_append_left hlt] at h
    exact .inl h
  · rw [List.getElem?_append_right hge, List.getElem?_singleton] at h
    split at h
    · exact .inr ⟨by omega, (Option.some.inj h).symm⟩
    · cases h

theorem Accounted.arrive {command : Command} (h : Accounted shell)
    (halone : command = .restartSidecar → ∀ place ∈ shell.threads, place.starting = false)
    (hstep : step shell (.arrive command) = some shell') : Accounted shell' := by
  have hkept := kept_step h.kept hstep
  cases hstep
  have hentry : command.entry.starting = true → command = .restartSidecar := by
    cases command <;> simp [Command.entry, Location.starting]
  have hnone : ∀ {thread : ℕ} {place : Location}, shell.threads[thread]? = some place →
      place.starting = true → command.entry.starting = true → False := by
    intro thread place hplace hstarting hcommand
    rw [halone (hentry hcommand) place (List.mem_of_getElem? hplace)] at hstarting
    cases hstarting
  refine ⟨hkept, ?_, ?_, ?_, ?_⟩
  · intro one other place₁ place₂ hone hother hstarting₁ hstarting₂
    rcases place_of_arrive hone with hone | ⟨rfl, rfl⟩ <;>
      rcases place_of_arrive hother with hother | ⟨rfl, rfl⟩
    · exact h.alone hone hother hstarting₁ hstarting₂
    · exact (hnone hone hstarting₁ hstarting₂).elim
    · exact (hnone hother hstarting₂ hstarting₁).elim
    · rfl
  · intro thread place hplace hstarting hne
    rcases place_of_arrive hplace with hplace | ⟨-, rfl⟩
    · exact h.unset hplace hstarting hne
    · rw [hentry hstarting] at hne
      exact absurd rfl hne
  · intro thread place hplace hwaited
    rcases place_of_arrive hplace with hplace | ⟨-, rfl⟩
    · exact h.waited hplace hwaited
    · cases command <;> cases hwaited
  · intro process hprocess
    rcases h.known process hprocess with hexits | hchild | ⟨place, hmem, hcarries⟩
    · exact .inl hexits
    · exact .inr (.inl hchild)
    · exact .inr (.inr ⟨place, List.mem_append_left _ hmem, hcarries⟩)

/-- No restart is called while a thread may start a process, and waiting for a process never
fails. -/
def Orderly (shell : Shell) : Event → Prop
  | .arrive command =>
      command = .restartSidecar → ∀ place ∈ shell.threads, place.starting = false
  | .turn _ answers => answers.waitFails = false
  | .exited _ _ => True

/-- A run of orderly events. -/
inductive OrderlyRun : Shell → Shell → Prop where
  | refl (shell : Shell) : OrderlyRun shell shell
  | step {shell middle shell' : Shell} (event : Event) (h : OrderlyRun shell middle)
      (horderly : Orderly middle event) (hstep : step middle event = some shell') :
      OrderlyRun shell shell'

theorem accounted_launch : Accounted launch where
  kept := kept_launch
  alone := by
    intro thread other place place' hplace hother _ _
    have hthread := (List.getElem?_eq_some_iff.mp hplace).1
    have hother := (List.getElem?_eq_some_iff.mp hother).1
    simp only [launch, List.length_singleton] at hthread hother
    omega
  unset := fun _ _ _ => rfl
  waited := by
    intro thread place hplace hwaited
    obtain rfl : place = .setupStart := List.mem_singleton.mp (List.mem_of_getElem? hplace)
    cases hwaited
  known := fun process hprocess => absurd hprocess (Nat.not_lt_zero process)

theorem OrderlyRun.accounted (h : OrderlyRun launch shell) : Accounted shell := by
  induction h with
  | refl => exact accounted_launch
  | step event _ horderly hstep ih =>
      cases event with
      | arrive command => exact ih.arrive horderly hstep
      | turn thread answers => exact ih.move horderly hstep
      | exited process code => exact ih.exited hstep

/-- Two restarts that overlap leave a process behind that runs on and that nobody knows. -/
example : (run launch
    ([.turn 0 ⟨.error "Fixed backend sidecar is missing", false, none⟩,
      .arrive .restartSidecar, .arrive .restartSidecar] ++
      [1, 2, 1, 1, 1, 1, 1, 1, 2, 2, 2, 2, 2].map fun thread =>
        .turn thread ⟨.ok (), false, none⟩)).map
      (fun shell => (shell.shared.started, shell.shared.state.child, shell.shared.exits 0)) =
    some (2, some 1, none) := by decide

end OptionResearch.Sidecar
