import Mathlib.Logic.Basic

/-!
# Loops that run until they are left

A `while True` loop is its body: one pass from a state leaves the loop with a result or goes on to
a next state. The rules say that a result does not depend on how long one waits for it, that a
measure that goes down with every pass bounds their number, and what an invariant gives for the
result.
-/

namespace OptionResearch

/-- What one pass through the body of a loop does. -/
inductive Pass (σ ρ : Type*) where
  | left (result : ρ)
  | again (next : σ)

def Pass.map {σ ρ τ κ : Type*} (view : σ → τ) (read : ρ → κ) : Pass σ ρ → Pass τ κ
  | .left result => .left (read result)
  | .again next => .again (view next)

namespace WhileTrue

variable {σ ρ : Type*}

/-- The result, if the loop is left within that many passes. -/
def run (body : σ → Pass σ ρ) : Nat → σ → Option ρ
  | 0, _ => none
  | passes + 1, state =>
    match body state with
    | .left result => some result
    | .again next => run body passes next

variable {body : σ → Pass σ ρ} {state next : σ} {result other : ρ} {passes more : Nat}

theorem run_left (h : body state = .left result) : run body (passes + 1) state = some result := by
  rw [run, h]

theorem run_again (h : body state = .again next) :
    run body (passes + 1) state = run body passes next := by
  rw [run, h]

theorem run_mono (h : run body passes state = some result) (hle : passes ≤ more) :
    run body more state = some result := by
  induction passes generalizing state more with
  | zero => cases h
  | succ passes ih =>
    obtain ⟨more, rfl⟩ := Nat.exists_eq_add_of_le' (Nat.le_of_add_left_le hle)
    cases hbody : body state with
    | left _ =>
      rw [run_left hbody] at h ⊢
      exact h
    | again next =>
      rw [run_again hbody] at h ⊢
      exact ih h (Nat.le_of_succ_le_succ hle)

/-- However long one waits, the result is the same. -/
theorem run_unique (h : run body passes state = some result)
    (hother : run body more state = some other) : result = other := by
  have hmax := run_mono h (Nat.le_max_left passes more)
  rw [run_mono hother (Nat.le_max_right passes more)] at hmax
  exact (Option.some.inj hmax).symm

/-- A measure that goes down with every pass bounds their number. -/
theorem exists_run_of_measure (Inv : σ → Prop) (measure : σ → Nat)
    (hstep : ∀ state next, Inv state → body state = .again next →
      Inv next ∧ measure next < measure state)
    (hstate : Inv state) (hle : measure state < passes) :
    ∃ result, run body passes state = some result := by
  induction passes generalizing state with
  | zero => exact absurd hle (Nat.not_lt_zero _)
  | succ passes ih =>
    cases hbody : body state with
    | left result => exact ⟨result, run_left hbody⟩
    | again next =>
      obtain ⟨hnext, hless⟩ := hstep state next hstate hbody
      rw [run_again hbody]
      exact ih hnext (Nat.lt_of_lt_of_le hless (Nat.le_of_lt_succ hle))

/-- What the last state's pass gives holds of the result. -/
theorem run_post (Inv : σ → Prop) (Post : ρ → Prop)
    (hstep : ∀ state next, Inv state → body state = .again next → Inv next)
    (hleft : ∀ state result, Inv state → body state = .left result → Post result)
    (hstate : Inv state) (h : run body passes state = some result) : Post result := by
  induction passes generalizing state with
  | zero => cases h
  | succ passes ih =>
    cases hbody : body state with
    | left _ =>
      rw [run_left hbody] at h
      cases h
      exact hleft state result hstate hbody
    | again next =>
      rw [run_again hbody] at h
      exact ih (hstep state next hstate hbody) h

/-- Two loops whose passes agree, seen through a view of the states and of the results. -/
theorem run_map {τ κ γ : Type*} {seen : τ → Pass τ κ} (view : σ → τ) (read : ρ → γ)
    (readSeen : κ → γ)
    (hstep : ∀ state, (seen (view state)).map id readSeen = (body state).map view read)
    (passes : Nat) (state : σ) :
    (run seen passes (view state)).map readSeen = (run body passes state).map read := by
  induction passes generalizing state with
  | zero => rfl
  | succ passes ih =>
    have hview := hstep state
    cases hbody : body state with
    | left result =>
      cases hseen : seen (view state) with
      | left other =>
        rw [hbody, hseen] at hview
        rw [run_left hbody, run_left hseen, Option.map_some, Option.map_some, Pass.left.inj hview]
      | again other => rw [hbody, hseen] at hview; cases hview
    | again next =>
      cases hseen : seen (view state) with
      | left other => rw [hbody, hseen] at hview; cases hview
      | again other =>
        rw [hbody, hseen] at hview
        obtain rfl : other = view next := Pass.again.inj hview
        rw [run_again hbody, run_again hseen, ih]

end WhileTrue
end OptionResearch
