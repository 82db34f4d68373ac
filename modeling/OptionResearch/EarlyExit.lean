import OptionResearch.PartialEffects

/-!
# Checks with an early exit

A check adds its findings to those of the checks before it and says whether to leave the loop it
stands in. Run once to collect all findings and once to leave at the first that fails, a program of
checks finds the same up to that finding. `Emits` states this of one check, and it is kept by
sequences, loops, reads that may raise, and loops that are left by a look at the last finding.
-/

namespace OptionResearch.EarlyExit

variable {ε I α : Type}

/-- Whether to leave the loop, and the findings so far. -/
abbrev Check (ε I : Type) := List I → Except ε (Bool × List I)

def done : Check ε I := fun found => .ok (false, found)

/-- One more finding. -/
def add (leave : Bool) (finding : I) : Check ε I := fun found => .ok (leave, found ++ [finding])

/-- The second check, unless the first leaves. -/
def andThen (first second : Check ε I) : Check ε I := fun found => do
  let (left, found) ← first found
  if left then return (true, found) else second found

/-- A loop that a check may leave. -/
def each (check : α → Check ε I) : List α → Check ε I
  | [] => done
  | item :: rest => andThen (check item) (each check rest)

/-- A check on what is read first. -/
def reading (read : Except ε α) (check : α → Check ε I) : Check ε I := fun found => do
  let value ← read
  check value found

/-- A loop of its own inside another one, which is left if `leave` says so of the last finding. -/
def nested (leave : I → Bool) (loop : Check ε I) : Check ε I := fun found => do
  let (_, found) ← loop found
  return (found.getLast?.any leave, found)

/-! ### The findings up to a failure -/

/-- The findings up to and with the first that fails. -/
def upToFirst (fails : I → Bool) : List I → List I
  | [] => []
  | finding :: rest => if fails finding then [finding] else finding :: upToFirst fails rest

variable {fails : I → Bool} {found : List I}

theorem any_upToFirst (found : List I) : (upToFirst fails found).any fails = found.any fails := by
  induction found with
  | nil => rfl
  | cons finding rest ih =>
    rw [upToFirst, List.any_cons]
    split_ifs with hfails
    · simp [hfails]
    · rw [List.any_cons, ih]

theorem upToFirst_eq_self (h : found.any fails = false) : upToFirst fails found = found := by
  induction found with
  | nil => rfl
  | cons finding rest ih =>
    obtain ⟨hfinding, hrest⟩ := Bool.or_eq_false_iff.mp (List.any_cons.symm.trans h)
    rw [upToFirst, if_neg (by simp [hfinding]), ih hrest]

theorem upToFirst_append (found later : List I) : upToFirst fails (found ++ later) =
    if found.any fails then upToFirst fails found else found ++ upToFirst fails later := by
  induction found with
  | nil => rfl
  | cons finding rest ih =>
    rw [List.cons_append, upToFirst, upToFirst, List.any_cons]
    by_cases hfails : fails finding
    · simp [hfails]
    · rw [if_neg hfails, if_neg hfails, ih]
      simp only [Bool.not_eq_true] at hfails
      rw [hfails, Bool.false_or]
      split_ifs <;> rfl

/-- The last of the findings up to a failure is the failure, if there is one. -/
theorem any_getLast?_upToFirst (found : List I) :
    (upToFirst fails found).getLast?.any fails = found.any fails := by
  induction found with
  | nil => rfl
  | cons finding rest ih =>
    rw [upToFirst, List.any_cons]
    split_ifs with hfails
    · simp [hfails]
    · simp only [Bool.not_eq_true] at hfails
      rw [hfails, Bool.false_or, ← ih]
      cases hrest : upToFirst fails rest with
      | nil => simp [hfails]
      | cons next later => rw [List.getLast?_cons_cons]

/-! ### The two runs of a check -/

/-- Run to collect, the check adds the findings `new` and never leaves. Run to fail fast behind
findings that do not fail, it adds them up to the first that fails, and leaves if there is one. -/
structure Emits (fails : I → Bool) (collect fast : Check ε I) (new : Except ε (List I)) :
    Prop where
  collect : ∀ found, collect found = new.map fun findings => (false, found ++ findings)
  fast : ∀ found findings, found.any fails = false → new = .ok findings →
    fast found = .ok (findings.any fails, found ++ upToFirst fails findings)

/-- The two runs of a check find the same, up to the first that fails. -/
def Agrees (fails : I → Bool) (collect fast : Check ε I) : Prop :=
  ∃ new, Emits fails collect fast new

variable {collect fast collect' fast' : Check ε I}

theorem agrees_done : Agrees fails (done : Check ε I) done := by
  refine ⟨.ok [], fun found => ?_, fun found findings _ h => ?_⟩
  · rw [done, Except.map, List.append_nil]
  · cases h
    rw [done, upToFirst, List.append_nil]
    rfl

theorem agrees_add (finding : I) :
    Agrees fails (add false finding : Check ε I) (add (fails finding) finding) := by
  refine ⟨.ok [finding], fun found => rfl, fun found findings _ h => ?_⟩
  cases h
  rw [add, upToFirst, List.any_cons, List.any_nil, Bool.or_false]
  split_ifs <;> rfl

theorem Agrees.andThen (h : Agrees fails collect fast) (h' : Agrees fails collect' fast') :
    Agrees fails (andThen collect collect') (andThen fast fast') := by
  obtain ⟨new, hfirst⟩ := h
  obtain ⟨new', hsecond⟩ := h'
  refine ⟨(do
      let findings ← new
      let later ← new'
      return findings ++ later), fun found => ?_, fun found findings hclean hnew => ?_⟩
  · rw [EarlyExit.andThen, hfirst.collect]
    cases new with
    | error e => rfl
    | ok findings =>
      change collect' (found ++ findings) = _
      rw [hsecond.collect]
      cases new' with
      | error e => rfl
      | ok later =>
        change Except.ok (false, found ++ findings ++ later) = .ok (false, found ++ (findings ++ later))
        rw [List.append_assoc]
  · obtain ⟨first, hnewFirst, hnew⟩ := except_bind_eq_ok.mp hnew
    obtain ⟨later, hnewLater, hnew⟩ := except_bind_eq_ok.mp hnew
    cases hnew
    rw [EarlyExit.andThen, hfirst.fast found first hclean hnewFirst, List.any_append,
      upToFirst_append]
    by_cases hfails : first.any fails
    · rw [hfails, if_pos rfl, Bool.true_or]
      rfl
    · simp only [Bool.not_eq_true] at hfails
      rw [hfails, if_neg nofun, Bool.false_or, upToFirst_eq_self hfails, ← List.append_assoc]
      have hboth : (found ++ first).any fails = false := by
        rw [List.any_append, hclean, hfails, Bool.or_self]
      exact hsecond.fast (found ++ first) later hboth hnewLater

theorem agrees_each {check check' : α → Check ε I}
    (h : ∀ item, Agrees fails (check item) (check' item)) (items : List α) :
    Agrees fails (each check items) (each check' items) := by
  induction items with
  | nil => exact agrees_done
  | cons item rest ih => exact (h item).andThen ih

theorem agrees_reading {read : Except ε α} {check check' : α → Check ε I}
    (h : ∀ value, Agrees fails (check value) (check' value)) :
    Agrees fails (reading read check) (reading read check') := by
  cases read with
  | error e => exact ⟨.error e, fun found => rfl, fun found findings _ hnew => nomatch hnew⟩
  | ok value =>
    obtain ⟨new, hemits⟩ := h value
    exact ⟨new, hemits.collect, hemits.fast⟩

/-- The look at the last finding finds out whether the inner loop was left. -/
theorem Agrees.nested (h : Agrees fails collect fast) :
    Agrees fails (nested (fun _ => false) collect) (nested fails fast) := by
  obtain ⟨new, hemits⟩ := h
  refine ⟨new, fun found => ?_, fun found findings hclean hnew => ?_⟩
  · rw [EarlyExit.nested, hemits.collect]
    cases new with
    | error e => rfl
    | ok findings =>
      change Except.ok ((found ++ findings).getLast?.any fun _ => false, found ++ findings) = _
      cases (found ++ findings).getLast? <;> rfl
  · rw [EarlyExit.nested, hemits.fast found findings hclean hnew]
    change Except.ok ((found ++ upToFirst fails findings).getLast?.any fails, _) = _
    have hlast : (found ++ upToFirst fails findings).getLast?.any fails = findings.any fails := by
      rw [List.getLast?_append, ← any_getLast?_upToFirst]
      cases hfindings : (upToFirst fails findings).getLast? with
      | some last => rfl
      | none =>
        rw [Option.none_or]
        cases hfound : found.getLast? with
        | none => rfl
        | some last =>
          have hpasses := List.any_eq_false.mp hclean last (List.mem_of_getLast? hfound)
          exact Bool.eq_false_iff.mpr hpasses
    rw [hlast]

/-- From no findings on, a run that fails fast finds what the other run finds, up to the first that
fails. -/
theorem Agrees.run (h : Agrees fails collect fast) {left : Bool} {findings : List I}
    (hcollect : collect [] = .ok (left, findings)) :
    fast [] = .ok (findings.any fails, upToFirst fails findings) := by
  obtain ⟨new, hemits⟩ := h
  rw [hemits.collect, except_map_eq_ok] at hcollect
  obtain ⟨findings', hnew, hpair⟩ := hcollect
  cases hpair
  exact hemits.fast [] findings' rfl hnew

end OptionResearch.EarlyExit
