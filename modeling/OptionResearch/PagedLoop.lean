import Mathlib.Logic.Function.Iterate
import Mathlib.Order.Preorder.Finite
import OptionResearch.WhileTrue

/-!
# Loops that read page after page

A paged loop keeps a control state, which decides what to ask for next, and the data it gathers. Its
course does not depend on the data: the pages it reads and how it ends are those of the control
states alone, and its data are the pages gathered one after the other. Where the control follows a
cursor from page to page, it ends exactly where that walk comes to a cursor at which it stops.
-/

namespace OptionResearch

/-- What a pass does besides gathering: it leaves without a page, leaves after a last page, or reads
a page and goes on. -/
inductive Turn (C P R : Type*) where
  | leave (outcome : R)
  | last (page : P) (outcome : R)
  | next (page : P) (control : C)

namespace PagedLoop

variable {C P O D ε : Type*}

section Loop

variable (turn : C → Turn C P (Except ε O)) (gather : D → P → Except ε D)

def pass (state : C × D) : Pass (C × D) (Except ε (O × D)) :=
  match turn state.1 with
  | .leave outcome => .left (outcome.map fun outcome => (outcome, state.2))
  | .last page outcome =>
    .left ((gather state.2 page).bind fun data => outcome.map fun outcome => (outcome, data))
  | .next page control =>
    match gather state.2 page with
    | .ok data => .again (control, data)
    | .error error => .left (.error error)

/-- The pages of the first passes. -/
def pages : Nat → C → List P
  | 0, _ => []
  | passes + 1, control =>
    match turn control with
    | .leave _ => []
    | .last page _ => [page]
    | .next page next => page :: pages passes next

/-- How the loop ends, if it ends within that many passes. -/
def outcome : Nat → C → Option (Except ε O)
  | 0, _ => none
  | passes + 1, control =>
    match turn control with
    | .leave outcome => some outcome
    | .last _ outcome => some outcome
    | .next _ next => outcome passes next

/-- The control state after that many pages, if there are pages after them. -/
def reached : Nat → C → Option C
  | 0, control => some control
  | passes + 1, control =>
    match turn control with
    | .next _ next => reached passes next
    | _ => none

end Loop

variable {turn : C → Turn C P (Except ε O)} {gather : D → P → Except ε D} {control next : C}
  {page : P} {passes : Nat}

theorem pages_next (h : turn control = .next page next) :
    pages turn (passes + 1) control = page :: pages turn passes next := by
  rw [pages, h]

theorem outcome_next (h : turn control = .next page next) :
    outcome turn (passes + 1) control = outcome turn passes next := by
  rw [outcome, h]

theorem reached_next (h : turn control = .next page next) :
    reached turn (passes + 1) control = reached turn passes next := by
  rw [reached, h]

/-- A run gives a result exactly where the control comes to an end without an error and all the
pages can be gathered. -/
theorem run_eq_ok_iff {data gathered : D} {result : O} :
    WhileTrue.run (pass turn gather) passes (control, data) = some (.ok (result, gathered)) ↔
      outcome turn passes control = some (.ok result) ∧
        (pages turn passes control).foldlM gather data = .ok gathered := by
  induction passes generalizing control data with
  | zero => simp [WhileTrue.run, outcome]
  | succ passes ih =>
    cases hturn : turn control with
    | leave left =>
      rw [WhileTrue.run_left (by rw [pass, hturn]), outcome, pages, hturn]
      cases left <;> simp [Except.map, Except.pure, pure]
    | last page left =>
      rw [WhileTrue.run_left (by rw [pass, hturn]), outcome, pages, hturn]
      cases hgather : gather data page <;> cases left <;>
        simp [Except.map, Except.bind, bind, pure, Except.pure, hgather]
    | next page next =>
      rw [outcome_next hturn, pages_next hturn, List.foldlM_cons]
      cases hgather : gather data page with
      | error error =>
        rw [WhileTrue.run_left (by rw [pass, hturn]; simp only [hgather]; rfl)]
        simp [bind, Except.bind]
      | ok more =>
        rw [WhileTrue.run_again (by rw [pass, hturn]; simp only [hgather]; rfl), ih]
        simp [bind, Except.bind]

theorem outcome_eq_some_iff {result : Except ε O} :
    outcome turn passes control = some result ↔
      ∃ before < passes, ∃ last, reached turn before control = some last ∧
        (turn last = .leave result ∨ ∃ page, turn last = .last page result) := by
  induction passes generalizing control with
  | zero => simp [outcome]
  | succ passes ih =>
    constructor
    · intro h
      cases hturn : turn control with
      | leave left =>
        rw [outcome, hturn] at h
        cases h
        exact ⟨0, by omega, control, rfl, .inl hturn⟩
      | last page left =>
        rw [outcome, hturn] at h
        cases h
        exact ⟨0, by omega, control, rfl, .inr ⟨page, hturn⟩⟩
      | next page next =>
        rw [outcome_next hturn, ih] at h
        obtain ⟨before, hlt, last, hreached, hlast⟩ := h
        exact ⟨before + 1, by omega, last, (reached_next hturn).trans hreached, hlast⟩
    · rintro ⟨before, hlt, last, hreached, hlast⟩
      cases before with
      | zero =>
        cases hreached
        rcases hlast with hleave | ⟨page, hpage⟩
        · rw [outcome, hleave]
        · rw [outcome, hpage]
      | succ before =>
        cases hturn : turn control with
        | leave _ => simp [reached, hturn] at hreached
        | last _ _ => simp [reached, hturn] at hreached
        | next page next =>
          rw [reached_next hturn] at hreached
          rw [outcome_next hturn, ih]
          exact ⟨before, by omega, last, hreached, hlast⟩

/-- No pages come after the end. -/
theorem pages_subset_of_outcome {result : Except ε O} {others : Nat}
    (h : outcome turn passes control = some result) :
    pages turn others control ⊆ pages turn passes control := by
  induction passes generalizing control others with
  | zero => cases h
  | succ passes ih =>
    cases others with
    | zero => exact List.nil_subset _
    | succ others =>
      cases hturn : turn control with
      | leave left => simp [pages, hturn]
      | last page left => simp [pages, hturn]
      | next page next =>
        rw [outcome_next hturn] at h
        rw [pages_next hturn, pages_next hturn]
        exact List.cons_subset_cons _ (ih h)

/-- The page a pass reads, whether or not it goes on. -/
def Reads (turn : C → Turn C P (Except ε O)) (control : C) (page : P) : Prop :=
  (∃ next, turn control = .next page next) ∨ ∃ result, turn control = .last page result

theorem not_reads_of_leave {result : Except ε O} (hleave : turn control = .leave result) :
    ¬ Reads turn control page := by
  rintro (⟨next, hnext⟩ | ⟨result, hlast⟩)
  · rw [hleave] at hnext
    cases hnext
  · rw [hleave] at hlast
    cases hlast

theorem mem_pages_iff :
    page ∈ pages turn passes control ↔
      ∃ before < passes, ∃ last,
        reached turn before control = some last ∧ Reads turn last page := by
  induction passes generalizing control with
  | zero => simp [pages]
  | succ passes ih =>
    constructor
    · intro h
      cases hturn : turn control with
      | leave left => simp [pages, hturn] at h
      | last only left =>
        rw [pages, hturn] at h
        cases List.mem_singleton.mp h
        exact ⟨0, by omega, control, rfl, .inr ⟨left, hturn⟩⟩
      | next first next =>
        rw [pages_next hturn, List.mem_cons, ih] at h
        rcases h with rfl | ⟨before, hlt, last, hreached, hreads⟩
        · exact ⟨0, by omega, control, rfl, .inl ⟨next, hturn⟩⟩
        · exact ⟨before + 1, by omega, last, (reached_next hturn).trans hreached, hreads⟩
    · rintro ⟨before, hlt, last, hreached, hreads⟩
      cases before with
      | zero =>
        cases hreached
        rcases hreads with ⟨next, hnext⟩ | ⟨result, hlast⟩
        · simp [pages, hnext]
        · simp [pages, hlast]
      | succ before =>
        cases hturn : turn control with
        | leave _ => simp [reached, hturn] at hreached
        | last _ _ => simp [reached, hturn] at hreached
        | next first next =>
          rw [reached_next hturn] at hreached
          rw [pages_next hturn, List.mem_cons, ih]
          exact .inr ⟨before, by omega, last, hreached, hreads⟩

/-! ### Noting the pages -/

/-- A pass that reads a page notes its number, and a pass without one notes nothing. -/
def NotesPages (turn : C → Turn C P (Except ε O)) (number : C → Nat) (noted : C → List Nat)
    (ended : O → List Nat) : Prop :=
  ∀ control, match turn control with
    | .leave outcome => ∀ result, outcome = .ok result → ended result = noted control
    | .last _ outcome =>
      ∀ result, outcome = .ok result → ended result = noted control ++ [number control]
    | .next _ next =>
      noted next = noted control ++ [number control] ∧ number next = number control + 1

/-- The pages that are read are noted in turn. -/
theorem NotesPages.noted_of_outcome {number : C → Nat} {noted : C → List Nat}
    {ended : O → List Nat} (hnotes : NotesPages turn number noted ended) {result : O}
    (h : outcome turn passes control = some (.ok result)) :
    ended result = noted control ++
      List.range' (number control) (pages turn passes control).length := by
  induction passes generalizing control with
  | zero => cases h
  | succ passes ih =>
    have hpass := hnotes control
    cases hturn : turn control with
    | leave left =>
      rw [hturn] at hpass
      rw [outcome, hturn] at h
      rw [hpass result (Option.some.inj h), pages, hturn]
      exact (List.append_nil _).symm
    | last page left =>
      rw [hturn] at hpass
      rw [outcome, hturn] at h
      rw [hpass result (Option.some.inj h), pages, hturn]
      rfl
    | next page next =>
      rw [hturn] at hpass
      rw [outcome_next hturn] at h
      rw [pages_next hturn, ih h, hpass.1, hpass.2, List.length_cons, List.range'_succ,
        List.append_assoc]
      rfl

/-! ### Following a cursor -/

section Cursor

variable {κ : Type*}

/-- Unless it is asked to stop, a control state takes the loop to the next cursor where its own one
goes on; otherwise it leaves. -/
structure FollowsCursor (turn : C → Turn C P (Except ε O)) (Inv : C → Prop) (number : C → Nat)
    (cursor : C → κ) (asked : Nat → Prop) (goesOn : κ → Prop) (step : κ → κ) : Prop where
  next : ∀ control, Inv control → ¬ asked (number control) → goesOn (cursor control) →
    ∃ page next, turn control = .next page next ∧ Inv next ∧
      number next = number control + 1 ∧ cursor next = step (cursor control)
  stops : ∀ control, Inv control → asked (number control) ∨ ¬ goesOn (cursor control) →
    ∃ result, turn control = .leave result ∨ ∃ page, turn control = .last page result

variable {Inv : C → Prop} {number : C → Nat} {cursor : C → κ} {asked : Nat → Prop}
  {goesOn : κ → Prop} {step : κ → κ} {n : Nat}

/-- Nothing stops the first of the pages after a control state. -/
def Undisturbed (asked : Nat → Prop) (goesOn : κ → Prop) (step : κ → κ) (first : Nat) (start : κ)
    (n : Nat) : Prop :=
  ∀ i < n, ¬ asked (first + i) ∧ goesOn (step^[i] start)

theorem Undisturbed.succ {first : Nat} {start : κ} :
    Undisturbed asked goesOn step first start (n + 1) ↔
      (¬ asked first ∧ goesOn start) ∧
        Undisturbed asked goesOn step (first + 1) (step start) n := by
  constructor
  · intro h
    refine ⟨h 0 (by omega), fun i hi => ?_⟩
    have hnext := h (i + 1) (by omega)
    rwa [Function.iterate_succ_apply, show first + (i + 1) = first + 1 + i by omega] at hnext
  · rintro ⟨hfirst, hrest⟩ i hi
    cases i with
    | zero => exact hfirst
    | succ i =>
      have hnext := hrest i (by omega)
      rwa [Function.iterate_succ_apply, show first + (i + 1) = first + 1 + i by omega]

/-- The control state after pages that nothing stops. -/
theorem FollowsCursor.exists_reached
    (hfollows : FollowsCursor turn Inv number cursor asked goesOn step) (hinv : Inv control)
    (h : Undisturbed asked goesOn step (number control) (cursor control) n) :
    ∃ last, reached turn n control = some last ∧ Inv last ∧ number last = number control + n ∧
      cursor last = step^[n] (cursor control) := by
  induction n generalizing control with
  | zero => exact ⟨control, rfl, hinv, rfl, rfl⟩
  | succ n ih =>
    obtain ⟨⟨hasked, hgoes⟩, hrest⟩ := Undisturbed.succ.mp h
    obtain ⟨page, next, hturn, hnext, hnumber, hcursor⟩ := hfollows.next control hinv hasked hgoes
    rw [← hnumber, ← hcursor] at hrest
    obtain ⟨last, hreached, hlast, hcount, hend⟩ := ih hnext hrest
    refine ⟨last, (reached_next hturn).trans hreached, hlast, by omega, ?_⟩
    rw [hend, hcursor, Function.iterate_succ_apply]

/-- A control state is reached only over pages that nothing stops. -/
theorem FollowsCursor.undisturbed_of_reached
    (hfollows : FollowsCursor turn Inv number cursor asked goesOn step) (hinv : Inv control)
    {last : C} (h : reached turn n control = some last) :
    Undisturbed asked goesOn step (number control) (cursor control) n := by
  induction n generalizing control with
  | zero => exact fun i hi => absurd hi (Nat.not_lt_zero i)
  | succ n ih =>
    by_cases hstop : asked (number control) ∨ ¬ goesOn (cursor control)
    · obtain ⟨result, hleave | ⟨page, hpage⟩⟩ := hfollows.stops control hinv hstop
      · simp [reached, hleave] at h
      · simp [reached, hpage] at h
    · rw [not_or, not_not] at hstop
      obtain ⟨page, next, hturn, hnext, hnumber, hcursor⟩ :=
        hfollows.next control hinv hstop.1 hstop.2
      rw [reached_next hturn] at h
      have hrest := ih hnext h
      rw [hnumber, hcursor] at hrest
      exact Undisturbed.succ.mpr ⟨hstop, hrest⟩

/-- The state a loop has reached, at the page and the cursor it has come to. -/
theorem FollowsCursor.reached_spec
    (hfollows : FollowsCursor turn Inv number cursor asked goesOn step) (hinv : Inv control)
    {last : C} (h : reached turn n control = some last) :
    Inv last ∧ number last = number control + n ∧ cursor last = step^[n] (cursor control) := by
  obtain ⟨other, hother, hspec⟩ :=
    hfollows.exists_reached hinv (hfollows.undisturbed_of_reached hinv h)
  rw [h] at hother
  cases hother
  exact hspec

/-- A loop ends in a control state that is asked to stop or whose cursor does not go on. -/
theorem FollowsCursor.end_spec
    (hfollows : FollowsCursor turn Inv number cursor asked goesOn step) (hinv : Inv control)
    {result : Except ε O} (houtcome : outcome turn passes control = some result) :
    ∃ n < passes, ∃ last, reached turn n control = some last ∧ Inv last ∧
      number last = number control + n ∧ cursor last = step^[n] (cursor control) ∧
      (asked (number last) ∨ ¬ goesOn (cursor last)) ∧
      (turn last = .leave result ∨ ∃ page, turn last = .last page result) := by
  obtain ⟨n, hlt, last, hreached, hturn⟩ := outcome_eq_some_iff.mp houtcome
  obtain ⟨hlast, hnumber, hcursor⟩ := hfollows.reached_spec hinv hreached
  refine ⟨n, hlt, last, hreached, hlast, hnumber, hcursor, ?_, hturn⟩
  by_contra hopen
  rw [not_or, not_not] at hopen
  obtain ⟨page, next, hnext, -⟩ := hfollows.next last hlast hopen.1 hopen.2
  rcases hturn with hleave | ⟨page, hend⟩
  · rw [hnext] at hleave
    cases hleave
  · rw [hnext] at hend
    cases hend

/-- A loop that nothing stops has no end. -/
theorem FollowsCursor.outcome_eq_none
    (hfollows : FollowsCursor turn Inv number cursor asked goesOn step) (hinv : Inv control)
    (hnever : ∀ t, ¬ asked (number control + t) ∧ goesOn (step^[t] (cursor control))) :
    outcome turn passes control = none := by
  rw [Option.eq_none_iff_forall_ne_some]
  intro result houtcome
  obtain ⟨n, -, last, -, -, hnumber, hcursor, hstop, -⟩ := hfollows.end_spec hinv houtcome
  rw [hnumber, hcursor] at hstop
  exact hstop.elim (hnever n).1 fun hno => hno (hnever n).2

/-- The control state after so many of the pages from the first one, where nothing stops them. -/
theorem FollowsCursor.exists_reached_of_first
    (hfollows : FollowsCursor turn Inv number cursor asked goesOn step) (hinv : Inv control)
    (hfirst : number control = 1)
    (hbefore : ∀ i < n, ¬ asked (i + 1) ∧ goesOn (step^[i] (cursor control))) :
    ∃ last, reached turn n control = some last ∧ Inv last ∧ number last = n + 1 ∧
      cursor last = step^[n] (cursor control) := by
  have hundisturbed : Undisturbed asked goesOn step (number control) (cursor control) n := by
    intro i hi
    rw [hfirst, Nat.add_comm]
    exact hbefore i hi
  obtain ⟨last, hreached, hlast, hnumber, hcursor⟩ := hfollows.exists_reached hinv hundisturbed
  rw [hfirst, Nat.add_comm] at hnumber
  exact ⟨last, hreached, hlast, hnumber, hcursor⟩

/-- Once a walk is back at an earlier cursor, it never comes to one that does not go on. -/
theorem goesOn_of_revisit {start : κ} {i j : Nat} (hlt : i < j)
    (hback : step^[j] start = step^[i] start) (hgoes : ∀ t < j, goesOn (step^[t] start)) (t : Nat) :
    goesOn (step^[t] start) := by
  induction t using Nat.strong_induction_on with
  | h t ih =>
    by_cases ht : t < j
    · exact hgoes t ht
    · have hearlier := ih (i + (t - j)) (by omega)
      have hsame : step^[t] start = step^[i + (t - j)] start := by
        rw [Nat.add_comm, Function.iterate_add_apply, ← hback, ← Function.iterate_add_apply,
          Nat.sub_add_cancel (Nat.le_of_not_lt ht)]
      exact hsame ▸ hearlier

/-- Among finitely many cursors, a walk that never comes back to one ends. -/
theorem exists_stop_of_fresh {start : κ} (hfin : (Set.range step).Finite)
    (hfresh : ∀ t, (∀ i ≤ t, goesOn (step^[i] start)) → ∀ i ≤ t,
      step^[t + 1] start ≠ step^[i] start) :
    ∃ t, ¬ goesOn (step^[t] start) := by
  by_contra! hgoes
  have hmem : ∀ t, step^[t + 1] start ∈ Set.range step := by
    intro t
    rw [Function.iterate_succ_apply']
    exact ⟨_, rfl⟩
  obtain ⟨i, j, hlt, heq⟩ := Set.Finite.exists_lt_map_eq_of_forall_mem hmem hfin
  exact hfresh j (fun t _ => hgoes t) (i + 1) hlt heq.symm

/-- A loop that follows a cursor and numbers its pages from one. A stop it is asked for is no
failure. Where a cursor does not go on, there is no further page, or there is a last one; that fails
where it has more to come. Whether a page is clean depends on its cursor. -/
structure CursorLoop (turn : C → Turn C P (Except ε O)) (Inv : C → Prop) (number : C → Nat)
    (cursor : C → κ) (asked : Nat → Prop) (goesOn more cleanAt : κ → Prop) (step : κ → κ)
    (completed : O → Nat) (failed : O → Prop) (clean : P → Prop) : Prop where
  next : ∀ control, Inv control → ¬ asked (number control) → goesOn (cursor control) →
    ∃ page next, turn control = .next page next ∧ Inv next ∧
      number next = number control + 1 ∧ cursor next = step (cursor control)
  asked_stop : ∀ control, Inv control → asked (number control) →
    ∃ result, turn control = .leave (.ok result) ∧ completed result + 1 = number control ∧
      ¬ failed result
  end_stop : ∀ control, Inv control → ¬ asked (number control) → ¬ goesOn (cursor control) →
    ∃ result, (turn control = .leave (.ok result) ∧ completed result + 1 = number control) ∨
      ∃ page, turn control = .last page (.ok result) ∧ completed result = number control ∧
        (more (cursor control) → failed result)
  more_of_goesOn : ∀ cursor, goesOn cursor → more cursor
  clean_page : ∀ control page, Inv control → Reads turn control page →
    (clean page ↔ cleanAt (cursor control))
  clean_cursor : ∀ control, Inv control → ¬ asked (number control) →
    cleanAt (cursor control) ∨ ∃ page, Reads turn control page

section CursorLoop

variable {more cleanAt : κ → Prop} {completed : O → Nat} {failed : O → Prop} {clean : P → Prop}

theorem CursorLoop.follows (hloop : CursorLoop turn Inv number cursor asked goesOn more cleanAt step
    completed failed clean) : FollowsCursor turn Inv number cursor asked goesOn step where
  next := hloop.next
  stops := by
    intro control hinv hstop
    by_cases hasked : asked (number control)
    · obtain ⟨result, hleave, -⟩ := hloop.asked_stop control hinv hasked
      exact ⟨_, .inl hleave⟩
    · obtain ⟨result, ⟨hleave, -⟩ | ⟨page, hlast, -⟩⟩ :=
        hloop.end_stop control hinv hasked (hstop.resolve_left hasked)
      · exact ⟨_, .inl hleave⟩
      · exact ⟨_, .inr ⟨page, hlast⟩⟩

/-- The pages it reads are those of the cursors it comes to. -/
theorem CursorLoop.page_spec (hloop : CursorLoop turn Inv number cursor asked goesOn more cleanAt
    step completed failed clean) (hinv : Inv control) (hfirst : number control = 1)
    (hpage : page ∈ pages turn passes control) :
    ∃ t, (∀ i ≤ t, ¬ asked (i + 1)) ∧ (∀ i < t, goesOn (step^[i] (cursor control))) ∧
      (clean page ↔ cleanAt (step^[t] (cursor control))) := by
  obtain ⟨t, -, last, hreached, hreads⟩ := mem_pages_iff.mp hpage
  have hundisturbed := hloop.follows.undisturbed_of_reached hinv hreached
  obtain ⟨hlast, hnumber, hcursor⟩ := hloop.follows.reached_spec hinv hreached
  rw [hfirst] at hundisturbed hnumber
  refine ⟨t, fun i hi hasked => ?_, fun i hi => (hundisturbed i hi).2, ?_⟩
  · rcases Nat.lt_or_eq_of_le hi with hlt | rfl
    · exact (hundisturbed i hlt).1 (Nat.add_comm i 1 ▸ hasked)
    · obtain ⟨result, hleave, -⟩ := hloop.asked_stop last hlast (by rwa [hnumber, Nat.add_comm])
      exact not_reads_of_leave hleave hreads
  · rw [← hcursor]
    exact hloop.clean_page last page hlast hreads

/-- Among finitely many cursors, a loop that goes on only to cursors it has not visited comes to
one where it stops. -/
theorem CursorLoop.exists_end (hfin : (Set.range step).Finite) {start : κ}
    (hfresh : ∀ t, (∀ i ≤ t, ¬ asked (i + 1)) → (∀ i < t, goesOn (step^[i] start)) →
      goesOn (step^[t] start) → ∀ i ≤ t, step^[t + 1] start ≠ step^[i] start) :
    ∃ n, (asked (n + 1) ∨ ¬ goesOn (step^[n] start)) ∧
      ∀ i < n, ¬ asked (i + 1) ∧ goesOn (step^[i] start) := by
  classical
  have hex : ∃ n, asked (n + 1) ∨ ¬ goesOn (step^[n] start) := by
    by_contra! hnever
    obtain ⟨t, ht⟩ := @exists_stop_of_fresh _ goesOn _ _ hfin fun t _ =>
      hfresh t (fun i _ => (hnever i).1) (fun i _ => (hnever i).2) (hnever t).2
    exact ht (hnever t).2
  refine ⟨Nat.find hex, Nat.find_spec hex, fun i hi => ?_⟩
  have hbefore := Nat.find_min hex hi
  rwa [not_or, not_not] at hbefore

/-- A loop that ends with clean pages, and fails where a page with more to come names a cursor that
was visited, comes to clean cursors only, and goes on only to cursors it has not visited. -/
theorem CursorLoop.fresh_of_ends
    (hloop : CursorLoop turn Inv number cursor asked goesOn more cleanAt step completed failed
      clean) (hinv : Inv control) (hfirst : number control = 1)
    {result : O} (houtcome : outcome turn passes control = some (.ok result))
    (hclean : ∀ page ∈ pages turn passes control, clean page)
    (hfails : ∀ t < completed result, more (step^[t] (cursor control)) →
      (∃ i ≤ t, step^[t + 1] (cursor control) = step^[i] (cursor control)) → failed result)
    {t : Nat} (hasked : ∀ i ≤ t, ¬ asked (i + 1))
    (hgoes : ∀ i < t, goesOn (step^[i] (cursor control))) :
    cleanAt (step^[t] (cursor control)) ∧
      (goesOn (step^[t] (cursor control)) →
        ∀ i ≤ t, step^[t + 1] (cursor control) ≠ step^[i] (cursor control)) := by
  obtain ⟨n, hlt, last, -, hlast, hnumber, hcursor, hstop, hturn⟩ :=
    hloop.follows.end_spec hinv houtcome
  rw [hfirst, Nat.add_comm] at hnumber
  rw [hnumber, hcursor] at hstop
  have hle : t ≤ n := by
    by_contra hgt
    rw [Nat.not_le] at hgt
    exact hstop.elim (hasked n hgt.le) fun hno => hno (hgoes n hgt)
  obtain ⟨control', hreached', hinv', hnumber', hcursor'⟩ :=
    hloop.follows.exists_reached_of_first hinv hfirst fun i hi => ⟨hasked i hi.le, hgoes i hi⟩
  constructor
  · rw [← hcursor']
    rcases hloop.clean_cursor control' hinv' (hnumber' ▸ hasked t le_rfl) with h | ⟨page, hreads⟩
    · exact h
    · have hmem : page ∈ pages turn passes control :=
        mem_pages_iff.mpr ⟨t, by omega, control', hreached', hreads⟩
      exact (hloop.clean_page control' page hinv' hreads).mp (hclean page hmem)
  · intro hgo i hi hback
    have hforever := @goesOn_of_revisit _ goesOn _ _ _ _ (Nat.lt_succ_of_le hi) hback
      fun m hm => (Nat.lt_succ_iff_lt_or_eq.mp hm).elim (hgoes m) fun heq => heq ▸ hgo
    -- the walk goes round and round, so that only the caller can have stopped the loop
    have hend := hstop.resolve_right fun hno => hno (hforever n)
    have hlt' : t < n := by
      rcases Nat.lt_or_eq_of_le hle with hless | rfl
      · exact hless
      · exact absurd hend (hasked t le_rfl)
    obtain ⟨other, hleave, hcompleted, hfine⟩ := hloop.asked_stop last hlast (hnumber ▸ hend)
    obtain rfl : other = result := by
      rcases hturn with h | ⟨page, h⟩
      · exact Except.ok.inj (Turn.leave.inj (hleave.symm.trans h))
      · rw [hleave] at h
        cases h
    exact hfine (hfails t (by omega) (hloop.more_of_goesOn _ hgo) ⟨i, hi, hback⟩)

/-- Among finitely many cursors, a loop that comes to clean cursors only, and goes on only to
cursors it has not visited, ends. -/
theorem CursorLoop.ends_of_fresh
    (hloop : CursorLoop turn Inv number cursor asked goesOn more cleanAt step completed failed
      clean) (hinv : Inv control) (hfirst : number control = 1)
    (hfin : (Set.range step).Finite)
    (hcond : ∀ t, (∀ i ≤ t, ¬ asked (i + 1)) → (∀ i < t, goesOn (step^[i] (cursor control))) →
      cleanAt (step^[t] (cursor control)) ∧
        (goesOn (step^[t] (cursor control)) →
          ∀ i ≤ t, step^[t + 1] (cursor control) ≠ step^[i] (cursor control))) :
    ∃ passes result, outcome turn passes control = some (.ok result) ∧
      (∀ page ∈ pages turn passes control, clean page) ∧
      ∀ t < completed result, more (step^[t] (cursor control)) →
        (∃ i ≤ t, step^[t + 1] (cursor control) = step^[i] (cursor control)) → failed result := by
  obtain ⟨n, hstop, hbefore⟩ := exists_end hfin fun t hasked hgoes => (hcond t hasked hgoes).2
  obtain ⟨last, hreached, hlast, hnumber, hcursor⟩ :=
    hloop.follows.exists_reached_of_first hinv hfirst hbefore
  have hclean : ∀ page ∈ pages turn (n + 1) control, clean page := by
    intro page hpage
    obtain ⟨t, hasked, hgoes, hiff⟩ := hloop.page_spec hinv hfirst hpage
    exact hiff.mpr (hcond t hasked hgoes).1
  have hfresh : ∀ t < n,
      ¬ ∃ i ≤ t, step^[t + 1] (cursor control) = step^[i] (cursor control) := by
    rintro t ht ⟨i, hi, hback⟩
    exact (hcond t (fun m hm => (hbefore m (by omega)).1) (fun m hm => (hbefore m (by omega)).2)).2
      (hbefore t ht).2 i hi hback
  refine ⟨n + 1, ?_⟩
  by_cases hasked : asked (n + 1)
  · obtain ⟨result, hleave, hcompleted, -⟩ := hloop.asked_stop last hlast (hnumber ▸ hasked)
    refine ⟨result, outcome_eq_some_iff.mpr ⟨n, by omega, last, hreached, .inl hleave⟩, hclean, ?_⟩
    exact fun t ht _ hback => absurd hback (hfresh t (by omega))
  · obtain ⟨result, ⟨hleave, hcompleted⟩ | ⟨page, hend, hcompleted, hfail⟩⟩ :=
      hloop.end_stop last hlast (hnumber ▸ hasked) (hcursor ▸ hstop.resolve_left hasked)
    · refine ⟨result, outcome_eq_some_iff.mpr ⟨n, by omega, last, hreached, .inl hleave⟩, hclean,
        ?_⟩
      exact fun t ht _ hback => absurd hback (hfresh t (by omega))
    · refine ⟨result, outcome_eq_some_iff.mpr ⟨n, by omega, last, hreached, .inr ⟨page, hend⟩⟩,
        hclean, ?_⟩
      intro t ht hmore hback
      rcases Nat.lt_or_eq_of_le (show t ≤ n by omega) with hlt | rfl
      · exact absurd hback (hfresh t hlt)
      · exact hfail (hcursor ▸ hmore)

/-- Among finitely many cursors, such a loop ends with clean pages, and fails where a page with more
to come names a cursor that was visited, exactly where every cursor it comes to is clean and, if it
goes on from there, goes on to one that was not visited. -/
theorem CursorLoop.ends_iff
    (hloop : CursorLoop turn Inv number cursor asked goesOn more cleanAt step completed failed
      clean) (hinv : Inv control) (hfirst : number control = 1)
    (hfin : (Set.range step).Finite) :
    (∃ passes result, outcome turn passes control = some (.ok result) ∧
        (∀ page ∈ pages turn passes control, clean page) ∧
        ∀ t < completed result, more (step^[t] (cursor control)) →
          (∃ i ≤ t, step^[t + 1] (cursor control) = step^[i] (cursor control)) → failed result) ↔
      ∀ t, (∀ i ≤ t, ¬ asked (i + 1)) → (∀ i < t, goesOn (step^[i] (cursor control))) →
        cleanAt (step^[t] (cursor control)) ∧
          (goesOn (step^[t] (cursor control)) →
            ∀ i ≤ t, step^[t + 1] (cursor control) ≠ step^[i] (cursor control)) := by
  constructor
  · rintro ⟨passes, result, houtcome, hclean, hfails⟩ t hasked hgoes
    exact hloop.fresh_of_ends hinv hfirst houtcome hclean hfails hasked hgoes
  · exact hloop.ends_of_fresh hinv hfirst hfin

end CursorLoop

end Cursor

end PagedLoop
end OptionResearch
