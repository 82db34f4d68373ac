import Mathlib.Data.List.Basic
import Mathlib.Algebra.Order.Group.Nat
import Mathlib.Algebra.Order.BigOperators.Group.List
import Mathlib.Algebra.Order.Ring.Nat

/-!
# Threads that take locks in order

Threads share a state and take turns in any order. Where each place of their program says which
locks it holds and which lock its next turn takes, the locks belong to the threads that the places
name. If a thread only waits for locks that come after those it holds, some thread can always
move; and where every turn brings its thread nearer to its end, all of them return.
-/

namespace OptionResearch

variable {S P A L : Type}

/-- A shared state and the places of the threads, each known by its number. -/
structure Running (S P : Type) where
  shared : S
  threads : List P

/-- One turn of a thread: `none` where it has to wait or has returned. What the outside answers
during the turn is an argument. -/
abbrev ThreadTurn (S P A : Type) := Nat → A → S → P → Option (S × P)

/-- A figure summed over the threads changes by what the moving thread's place changes. -/
theorem sum_map_set (figure : P → Nat) {threads : List P} {thread : Nat} {place : P}
    (h : threads[thread]? = some place) (next : P) :
    ((threads.set thread next).map figure).sum + figure place =
      (threads.map figure).sum + figure next := by
  obtain ⟨hlt, rfl⟩ := List.getElem?_eq_some_iff.mp h
  have hsplit : threads = threads.take thread ++ threads[thread] :: threads.drop (thread + 1) := by
    rw [List.getElem_cons_drop, List.take_append_drop]
  rw [List.set_eq_take_append_cons_drop, if_pos hlt]
  nth_rewrite 4 [hsplit]
  simp only [List.map_append, List.map_cons, List.sum_append, List.sum_cons]
  omega

namespace Running

/-- The thread with the given number takes a turn. -/
def move (turn : ThreadTurn S P A) (running : Running S P) (thread : Nat) (answer : A) :
    Option (Running S P) := do
  let place ← running.threads[thread]?
  let (shared, next) ← turn thread answer running.shared place
  return ⟨shared, running.threads.set thread next⟩

/-- The threads take turns in the order listed. -/
def moves (turn : ThreadTurn S P A) (running : Running S P) (turns : List (Nat × A)) :
    Option (Running S P) :=
  turns.foldlM (fun running next => running.move turn next.1 next.2) running

theorem move_eq_some_iff {turn : ThreadTurn S P A} {running running' : Running S P} {thread : Nat}
    {answer : A} : running.move turn thread answer = some running' ↔
      ∃ place shared next, running.threads[thread]? = some place ∧
        turn thread answer running.shared place = some (shared, next) ∧
        running' = ⟨shared, running.threads.set thread next⟩ := by
  simp only [move, Option.bind_eq_bind, Option.bind_eq_some_iff, Option.pure_def,
    Option.some.injEq, Prod.exists]
  constructor
  · rintro ⟨place, hplace, shared, next, hturn, rfl⟩
    exact ⟨place, shared, next, hplace, hturn, rfl⟩
  · rintro ⟨place, shared, next, hplace, hturn, rfl⟩
    exact ⟨place, hplace, shared, next, hturn, rfl⟩

theorem move_eq_none_iff {turn : ThreadTurn S P A} {running : Running S P} {thread : Nat} {answer : A}
    {place : P} (hplace : running.threads[thread]? = some place) :
    running.move turn thread answer = none ↔ turn thread answer running.shared place = none := by
  rw [move, hplace, Option.bind_eq_bind, Option.bind_some]
  cases turn thread answer running.shared place with
  | none => simp
  | some result => simp

end Running

/-- Which locks the places of a program hold, and which lock the next turn takes. -/
structure Locking (turn : ThreadTurn S P A) (L : Type) where
  /-- The thread that a lock belongs to. -/
  held : S → L → Option Nat
  holds : P → L → Bool
  wants : P → Option L
  returned : P → Bool
  rank : L → Nat
  waits : ∀ {thread answer shared place}, turn thread answer shared place = none →
    returned place = true ∨ ∃ lock, wants place = some lock ∧ held shared lock ≠ none
  takes : ∀ {thread answer shared place shared' place'},
    turn thread answer shared place = some (shared', place') → ∀ lock, holds place lock = false →
      holds place' lock = true → held shared lock = none
  passes : ∀ {thread answer shared place shared' place'},
    turn thread answer shared place = some (shared', place') → ∀ lock, held shared' lock =
      if holds place' lock then if holds place lock then held shared lock else some thread
      else if holds place lock then none else held shared lock
  ordered : ∀ {place lock lock'}, wants place = some lock → holds place lock' = true →
    rank lock' < rank lock
  free : ∀ {place lock}, returned place = true → holds place lock = false

namespace Locking

open Running

variable {turn : ThreadTurn S P A} (locking : Locking turn L) {running running' : Running S P}

/-- A lock belongs to a thread exactly where the thread's place holds it. -/
def Kept (running : Running S P) : Prop :=
  ∀ lock thread, locking.held running.shared lock = some thread ↔
    ∃ place, running.threads[thread]? = some place ∧ locking.holds place lock = true

variable {locking}

/-- The lock of a place that does not hold it may pass to the thread, no other lock changes. -/
theorem Kept.move {thread : Nat} {answer : A} (h : locking.Kept running)
    (hmove : running.move turn thread answer = some running') : locking.Kept running' := by
  obtain ⟨place, shared, next, hplace, hturn, rfl⟩ := move_eq_some_iff.mp hmove
  have hlt : thread < running.threads.length := (List.getElem?_eq_some_iff.mp hplace).1
  intro lock other
  have hown := h lock thread
  have hother := h lock other
  have htakes := locking.takes hturn lock
  rw [locking.passes hturn lock]
  simp only [hplace, Option.some.injEq, exists_eq_left'] at hown
  by_cases heq : thread = other
  · subst heq
    simp only [List.getElem?_set_self hlt, Option.some.injEq, exists_eq_left']
    cases hp : locking.holds place lock <;> cases hn : locking.holds next lock <;> simp_all
  · simp only [List.getElem?_set_ne heq]
    rw [← hother]
    cases hp : locking.holds place lock <;> cases hn : locking.holds next lock <;> simp_all

/-- A thread joins at a place that holds nothing. -/
theorem Kept.arrive {place : P} (h : locking.Kept running)
    (hfree : ∀ lock, locking.holds place lock = false) :
    locking.Kept ⟨running.shared, running.threads ++ [place]⟩ := by
  intro lock thread
  rw [h lock thread]
  rcases Nat.lt_trichotomy thread running.threads.length with hlt | rfl | hgt
  · simp only [List.getElem?_append_left hlt]
  · simp [hfree lock]
  · rw [List.getElem?_eq_none (by omega), List.getElem?_eq_none (by simp; omega)]

/-- The state may change beside the threads as long as no lock changes hands. -/
theorem Kept.of_held {shared : S} (h : locking.Kept running)
    (hheld : locking.held shared = locking.held running.shared) :
    locking.Kept ⟨shared, running.threads⟩ := by
  intro lock thread
  rw [hheld]
  exact h lock thread

/-- Some thread that has not returned can move, whatever the outside answers. Were all of them
waiting, the thread that waits for the last lock would wait for a thread that waits for a later
one. -/
theorem Kept.exists_move (h : locking.Kept running)
    (hwork : ∃ place ∈ running.threads, locking.returned place = false) :
    ∃ thread place, running.threads[thread]? = some place ∧ locking.returned place = false ∧
      ∀ answer, ∃ running', running.move turn thread answer = some running' := by
  by_contra! hstuck
  -- Every thread at work waits for a lock that another thread at work holds.
  have hwaits : ∀ place ∈ running.threads, locking.returned place = false →
      ∃ lock, locking.wants place = some lock ∧ ∃ holder ∈ running.threads,
        locking.returned holder = false ∧ locking.holds holder lock = true := by
    intro place hplace hreturned
    obtain ⟨thread, hlt, hget⟩ := List.mem_iff_getElem.mp hplace
    have hthread : running.threads[thread]? = some place := by
      rw [List.getElem?_eq_getElem hlt, hget]
    obtain ⟨answer, hnone⟩ := hstuck thread place hthread hreturned
    have hturn : turn thread answer running.shared place = none := by
      rw [← move_eq_none_iff hthread]
      exact Option.eq_none_iff_forall_ne_some.mpr hnone
    rcases locking.waits hturn with hdone | ⟨lock, hwants, hheld⟩
    · rw [hdone] at hreturned
      cases hreturned
    · obtain ⟨other, hother⟩ := Option.ne_none_iff_exists'.mp hheld
      obtain ⟨holder, hholder, hholds⟩ := (h lock other).mp hother
      refine ⟨lock, hwants, holder, List.mem_of_getElem? hholder, ?_, hholds⟩
      cases hend : locking.returned holder with
      | false => rfl
      | true => rw [locking.free hend] at hholds; cases hholds
  -- So the locks that are waited for climb without end.
  have hclimb : ∀ bound, ∃ place ∈ running.threads, locking.returned place = false ∧
      ∃ lock, locking.wants place = some lock ∧ bound ≤ locking.rank lock := by
    intro bound
    induction bound with
    | zero =>
        obtain ⟨place, hplace, hreturned⟩ := hwork
        obtain ⟨lock, hwants, -⟩ := hwaits place hplace hreturned
        exact ⟨place, hplace, hreturned, lock, hwants, Nat.zero_le _⟩
    | succ bound ih =>
        obtain ⟨place, hplace, hreturned, lock, hwants, hbound⟩ := ih
        obtain ⟨lock', hwants', holder, hholder, hat, hholds⟩ := hwaits place hplace hreturned
        obtain rfl : lock = lock' := Option.some.inj (hwants.symm.trans hwants')
        obtain ⟨next, hnext, -⟩ := hwaits holder hholder hat
        have hlater := locking.ordered hnext hholds
        exact ⟨holder, hholder, hat, next, hnext, by omega⟩
  let ranks := running.threads.map fun place => (locking.wants place).elim 0 locking.rank
  obtain ⟨place, hplace, -, lock, hwants, hbound⟩ := hclimb (ranks.sum + 1)
  have hle : locking.rank lock ≤ ranks.sum := by
    apply List.le_sum_of_mem
    refine List.mem_map.mpr ⟨place, hplace, ?_⟩
    rw [hwants, Option.elim_some]
  omega

end Locking

/-! ### Every thread returns -/

namespace Running

variable {turn : ThreadTurn S P A} {remaining : P → Nat} {running running' : Running S P}

/-- How many turns the threads have left at most. -/
def turnsLeft (remaining : P → Nat) (running : Running S P) : Nat :=
  (running.threads.map remaining).sum

theorem turnsLeft_move {thread : Nat} {answer : A}
    (hturn : ∀ {thread answer shared place shared' place'},
      turn thread answer shared place = some (shared', place') → remaining place' < remaining place)
    (h : running.move turn thread answer = some running') :
    running'.turnsLeft remaining < running.turnsLeft remaining := by
  obtain ⟨place, shared, next, hplace, hnext, rfl⟩ := move_eq_some_iff.mp h
  have hless := hturn hnext
  have hsum := sum_map_set remaining hplace next
  simp only [turnsLeft]
  omega

/-- No run is longer than the turns that were left. -/
theorem length_moves_le
    (hturn : ∀ {thread answer shared place shared' place'},
      turn thread answer shared place = some (shared', place') → remaining place' < remaining place)
    {turns : List (Nat × A)} (h : running.moves turn turns = some running') :
    turns.length + running'.turnsLeft remaining ≤ running.turnsLeft remaining := by
  induction turns generalizing running with
  | nil =>
      cases h
      simp
  | cons next rest ih =>
      rw [moves, List.foldlM_cons, Option.bind_eq_bind, Option.bind_eq_some_iff] at h
      obtain ⟨middle, hmove, hrest⟩ := h
      have hless := turnsLeft_move hturn hmove
      have hle := ih hrest
      simp only [List.length_cons]
      omega

end Running

end OptionResearch
