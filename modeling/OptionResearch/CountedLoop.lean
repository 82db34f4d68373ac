import Mathlib.Data.List.Chain
import OptionResearch.PartialEffects
import OptionResearch.WhileTrue

/-!
# Loops over items that may be left

A `for` loop whose body may return, over a store that the passes write to. Along with the result it
hands out what each of its passes started from, and what it ended with where no pass left it. An
invariant of the passes holds at all of these points, and a relation that each pass keeps holds
between neighbouring ones.
-/

namespace OptionResearch

/-- What is asked of a pass, whether it leaves the loop or goes on. -/
def Pass.Meets {σ ρ : Type*} (Left : ρ → Prop) (Again : σ → Prop) : Pass σ ρ → Prop
  | .left result => Left result
  | .again next => Again next

namespace CountedLoop

variable {S ε ι σ ρ : Type}

/-- `for item in items`, and the store and the state before each pass. -/
def run (body : ι → σ → Effect S ε (Pass σ ρ)) (finish : σ → ρ) :
    List ι → σ → Effect S ε (ρ × List (S × σ))
  | [], state => do
    let store ← get
    return (finish state, [(store, state)])
  | item :: rest, state => do
    let store ← get
    match ← body item state with
    | .left result => return (result, [(store, state)])
    | .again next =>
      let (result, visited) ← run body finish rest next
      return (result, (store, state) :: visited)

variable {body : ι → σ → Effect S ε (Pass σ ρ)} {finish : σ → ρ} {item : ι} {rest : List ι}
  {state next : σ} {s t : S} {result : ρ}

theorem exec_run_nil : Effect.exec (run body finish [] state) s =
    (.ok (finish state, [(s, state)]), s) := rfl

theorem exec_run_left (h : Effect.exec (body item state) s = (.ok (.left result), t)) :
    Effect.exec (run body finish (item :: rest) state) s = (.ok (result, [(s, state)]), t) := by
  rw [run, Effect.exec_get_bind, Effect.exec_bind_of_ok h]
  rfl

theorem exec_run_again {u : S} {visited : List (S × σ)}
    (h : Effect.exec (body item state) s = (.ok (.again next), t))
    (hrest : Effect.exec (run body finish rest next) t = (.ok (result, visited), u)) :
    Effect.exec (run body finish (item :: rest) state) s =
      (.ok (result, (s, state) :: visited), u) := by
  rw [run, Effect.exec_get_bind, Effect.exec_bind_of_ok h]
  exact (Effect.exec_bind_of_ok hrest).trans rfl

theorem exec_run_error {error : ε} (h : Effect.exec (body item state) s = (.error error, t)) :
    Effect.exec (run body finish (item :: rest) state) s = (.error error, t) := by
  rw [run, Effect.exec_get_bind, Effect.exec_bind, h]

theorem exec_run_again_error {u : S} {error : ε}
    (h : Effect.exec (body item state) s = (.ok (.again next), t))
    (hrest : Effect.exec (run body finish rest next) t = (.error error, u)) :
    Effect.exec (run body finish (item :: rest) state) s = (.error error, u) := by
  rw [run, Effect.exec_get_bind, Effect.exec_bind_of_ok h, Effect.exec_bind, hrest]

/-- Where every pass from a state with the invariant returns, so does the loop: its states have the
invariant, each is related to the next, and the result is what the last of them leaves with. -/
theorem exists_run {Inv : S → σ → Prop} {Step : σ → σ → Prop} {Left : S → σ → ρ → Prop}
    (hbody : ∀ item s state, Inv s state → ∃ pass t,
      Effect.exec (body item state) s = (.ok pass, t) ∧
        pass.Meets (Left t state) fun next => Inv t next ∧ Step state next)
    (hfinish : ∀ s state, Inv s state → Left s state (finish state))
    (items : List ι) (h : Inv s state) :
    ∃ result visited last t,
      Effect.exec (run body finish items state) s = (.ok (result, visited), t) ∧
      visited.head? = some (s, state) ∧ visited.getLast? = some last ∧
      (∀ entry ∈ visited, Inv entry.1 entry.2) ∧
      visited.IsChain (fun entry entry' => Step entry.2 entry'.2) ∧ Left t last.2 result := by
  induction items generalizing s state with
  | nil =>
      exact ⟨finish state, [(s, state)], (s, state), s, exec_run_nil, rfl, rfl,
        List.forall_mem_singleton.mpr h, .singleton _, hfinish s state h⟩
  | cons item rest ih =>
      obtain ⟨pass, t, hpass, hmeets⟩ := hbody item s state h
      cases pass with
      | left result =>
          exact ⟨result, [(s, state)], (s, state), t, exec_run_left hpass, rfl, rfl,
            List.forall_mem_singleton.mpr h, .singleton _, hmeets⟩
      | again next =>
          obtain ⟨hnext, hstep⟩ := hmeets
          obtain ⟨result, visited, last, u, hrun, hhead, hlast, hall, hchain, hleft⟩ := ih hnext
          refine ⟨result, (s, state) :: visited, last, u, exec_run_again hpass hrun, rfl, ?_,
            List.forall_mem_cons.mpr ⟨h, hall⟩, ?_, hleft⟩
          · rw [List.getLast?_cons, hlast]
            rfl
          · refine List.isChain_cons.mpr ⟨?_, hchain⟩
            intro entry hentry
            rw [hhead] at hentry
            cases hentry
            exact hstep

/-! ### How far the passes lead -/

/-- So many steps lead from the one state to the other. -/
def Leads (Step : σ → σ → Prop) : ℕ → σ → σ → Prop
  | 0, state, last => state = last
  | n + 1, state, last => ∃ next, Step state next ∧ Leads Step n next last

theorem Leads.then {Step : σ → σ → Prop} {n : ℕ} {last after : σ} (h : Leads Step n state last)
    (hlast : Step last after) : Leads Step (n + 1) state after := by
  induction n generalizing state with
  | zero =>
      cases h
      exact ⟨after, hlast, rfl⟩
  | succ n ih =>
      obtain ⟨next, hstep, hrest⟩ := h
      exact ⟨next, hstep, ih hrest⟩

theorem Leads.exists_before {Step : σ → σ → Prop} {n : ℕ} {last : σ}
    (h : Leads Step (n + 1) state last) :
    ∃ before, Leads Step n state before ∧ Step before last := by
  induction n generalizing state with
  | zero =>
      obtain ⟨next, hstep, rfl⟩ := h
      exact ⟨state, rfl, hstep⟩
  | succ n ih =>
      obtain ⟨next, hstep, hrest⟩ := h
      obtain ⟨before, hbefore, hlast⟩ := ih hrest
      exact ⟨before, ⟨next, hstep, hbefore⟩, hlast⟩

/-- A loop that returns was led to a state with the invariant: either all its passes led there, or
the next one left from it. -/
theorem leads_of_exec_run {Inv : S → σ → Prop} {Step : σ → σ → Prop} {items : List ι}
    {visited : List (S × σ)}
    (hstep : ∀ item s state next t, Inv s state →
      Effect.exec (body item state) s = (.ok (.again next), t) → Inv t next ∧ Step state next)
    (h : Inv s state)
    (hrun : Effect.exec (run body finish items state) s = (.ok (result, visited), t)) :
    ∃ n last u, Leads Step n state last ∧ Inv u last ∧ visited.getLast? = some (u, last) ∧
      ((n = items.length ∧ result = finish last ∧ t = u) ∨
        (n < items.length ∧ ∃ item, Effect.exec (body item last) u = (.ok (.left result), t))) := by
  induction items generalizing s state visited with
  | nil =>
      cases hrun
      exact ⟨0, state, _, rfl, h, rfl, .inl ⟨rfl, rfl, rfl⟩⟩
  | cons item rest ih =>
      rcases hpass : Effect.exec (body item state) s with ⟨error | result' | next, u⟩
      · cases (exec_run_error hpass).symm.trans hrun
      · cases (exec_run_left hpass).symm.trans hrun
        exact ⟨0, state, s, rfl, h, rfl, .inr ⟨Nat.succ_pos _, item, hpass⟩⟩
      · obtain ⟨hnext, hstate⟩ := hstep item s state next u h hpass
        rcases hrest : Effect.exec (run body finish rest next) u with ⟨error | ⟨result', later⟩, t'⟩
        · cases (exec_run_again_error hpass hrest).symm.trans hrun
        · cases (exec_run_again hpass hrest).symm.trans hrun
          obtain ⟨n, last, u', hleads, hlast, hvisited, hend⟩ := ih hnext hrest
          refine ⟨n + 1, last, u', ⟨next, hstate, hleads⟩, hlast, ?_, ?_⟩
          · rw [List.getLast?_cons, hvisited]
            rfl
          · simpa only [List.length_cons, Nat.add_right_cancel_iff, Nat.add_lt_add_iff_right]
              using hend

/-- Where steps lead, the loop goes on from as long as there are items. -/
theorem exec_run_of_leads {Step : σ → σ → Prop}
    (hstep : ∀ item state next s, Step state next →
      ∃ t, Effect.exec (body item state) s = (.ok (.again next), t))
    {n : ℕ} {last : σ} (h : Leads Step n state last) {items : List ι} (hn : n ≤ items.length)
    (s : S) :
    ∃ u front, ∀ result visited t,
      Effect.exec (run body finish (items.drop n) last) u = (.ok (result, visited), t) →
      Effect.exec (run body finish items state) s = (.ok (result, front ++ visited), t) := by
  induction n generalizing state items s with
  | zero =>
      cases h
      exact ⟨s, [], fun _ _ _ hrun => hrun⟩
  | succ n ih =>
      obtain ⟨next, hnext, hrest⟩ := h
      cases items with
      | nil => exact absurd hn (Nat.not_succ_le_zero n)
      | cons item rest =>
          obtain ⟨t, hpass⟩ := hstep item state next s hnext
          obtain ⟨u, front, hrun⟩ := ih hrest (Nat.le_of_succ_le_succ hn) t
          exact ⟨u, (s, state) :: front, fun result visited t' hlast =>
            exec_run_again hpass (hrun result visited t' hlast)⟩

end CountedLoop
end OptionResearch
