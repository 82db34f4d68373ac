import OptionResearch.PartialEffects
import Mathlib.Data.List.Induction
import Mathlib.Order.Basic

/-!
# Rows read as of a time

Rows carry a time stamp whose reading may raise. Two lists of rows are the same up to a time when
they differ only in rows stamped later. A traversal that skips the later rows cannot tell such lists
apart, and the search for the newest row up to a time finds the last one of the greatest stamp.
-/

namespace OptionResearch.TimedRows

variable {ε α β τ : Type}

/-! ### Comprehensions that may raise -/

/-- `[item for item in items if test(item)]`. -/
def comprehend (test : α → Except ε Bool) : List α → Except ε (List α)
  | [] => .ok []
  | item :: rest => do
    let kept ← test item
    let others ← comprehend test rest
    return if kept then item :: others else others

/-- Items the test turns down may be left out beforehand. -/
theorem comprehend_filter {test : α → Except ε Bool} {p : α → Bool}
    (h : ∀ item, p item = false → test item = .ok false) (items : List α) :
    comprehend test (items.filter p) = comprehend test items := by
  induction items with
  | nil => rfl
  | cons item rest ih =>
    cases hp : p item with
    | true => rw [List.filter_cons_of_pos hp, comprehend, comprehend, ih]
    | false =>
      rw [List.filter_cons_of_neg (by simp [hp]), ih, comprehend, h item hp]
      change _ = (comprehend test rest).bind fun others => .ok others
      cases comprehend test rest <;> rfl

/-- A comprehension returns exactly where every test does, and then it is a filter. -/
theorem comprehend_eq_ok_iff {test : α → Except ε Bool} {items kept : List α} :
    comprehend test items = .ok kept ↔
      (∀ item ∈ items, ∃ verdict, test item = .ok verdict) ∧
        kept = items.filter fun item => (test item).toOption.getD false := by
  induction items generalizing kept with
  | nil => simp [comprehend, eq_comm]
  | cons item rest ih =>
    rw [List.forall_mem_cons]
    constructor
    · intro h
      obtain ⟨verdict, hverdict, h⟩ := except_bind_eq_ok.mp h
      obtain ⟨others, hothers, h⟩ := except_bind_eq_ok.mp h
      obtain ⟨hrest, rfl⟩ := ih.mp hothers
      cases h
      rw [List.filter_cons, hverdict]
      exact ⟨⟨⟨verdict, rfl⟩, hrest⟩, rfl⟩
    · rintro ⟨⟨⟨verdict, hverdict⟩, hrest⟩, rfl⟩
      rw [comprehend, hverdict, ih.mpr ⟨hrest, rfl⟩, List.filter_cons, hverdict]
      rfl

/-- Items that leave the state as it is may be left out beforehand. -/
theorem foldlM_filter {step : β → α → Except ε β} {p : α → Bool}
    (h : ∀ state item, p item = false → step state item = .ok state) (items : List α)
    (state : β) : (items.filter p).foldlM step state = items.foldlM step state := by
  induction items generalizing state with
  | nil => rfl
  | cons item rest ih =>
    cases hp : p item with
    | true =>
      rw [List.filter_cons_of_pos hp, List.foldlM_cons, List.foldlM_cons]
      exact congrArg _ (funext ih)
    | false =>
      rw [List.filter_cons_of_neg (by simp [hp]), ih, List.foldlM_cons, h state item hp]
      rfl

/-- A fold that reads its items and lets some of them change its state returns exactly where every
item can be read. -/
theorem foldlM_read_eq_ok_iff {γ : Type} {read : α → Except ε (Option γ)} {step : β → γ → β}
    {items : List α} {state result : β} :
    items.foldlM (fun state item => do
        let found ← read item
        return found.elim state (step state)) state = .ok result ↔
      (∀ item ∈ items, ∃ found, read item = .ok found) ∧
        result = (items.filterMap fun item => (read item).toOption.join).foldl step state := by
  induction items generalizing state with
  | nil =>
    constructor
    · intro h
      cases h
      exact ⟨fun _ h => (nomatch h), rfl⟩
    · rintro ⟨_, hresult⟩
      rw [hresult]
      rfl
  | cons item rest ih =>
    rw [List.foldlM_cons, List.forall_mem_cons]
    cases hread : read item with
    | error e => exact iff_of_false (fun h => nomatch h) fun ⟨⟨⟨_, h⟩, _⟩, _⟩ => nomatch h
    | ok found =>
      change (rest.foldlM _ (found.elim state (step state)) : Except ε β) = .ok result ↔ _
      have hread' : ∃ found', (.ok found : Except ε (Option γ)) = .ok found' := ⟨found, rfl⟩
      rw [ih, and_assoc, and_iff_right hread']
      cases found with
      | none =>
        rw [List.filterMap_cons_none (by rw [hread]; rfl)]
        rfl
      | some change =>
        rw [List.filterMap_cons_some (by rw [hread]; rfl)]
        rfl

/-! ### Rows up to a time -/

variable [Preorder τ] [DecidableLT τ]

/-- The row is not stamped later. -/
def notLater (asOf : τ) (stamp : α → Except ε τ) (row : α) : Bool :=
  match stamp row with
  | .ok time => !decide (asOf < time)
  | .error _ => true

/-- The lists differ only in rows stamped later. -/
def SameUpTo (asOf : τ) (stamp : α → Except ε τ) (left right : List α) : Prop :=
  left.filter (notLater asOf stamp) = right.filter (notLater asOf stamp)

/-- The answers do not depend on rows stamped later. -/
def HidesLater (asOf : τ) (stamp : α → Except ε τ) (query : List α → β) : Prop :=
  ∀ left right, SameUpTo asOf stamp left right → query left = query right

variable {asOf : τ} {stamp : α → Except ε τ} {left right : List α}

theorem notLater_eq_false {row : α} :
    notLater asOf stamp row = false ↔ ∃ time, stamp row = .ok time ∧ asOf < time := by
  rw [notLater]
  cases stamp row with
  | error e => exact iff_of_false (fun h => Bool.noConfusion h) fun ⟨time, h, _⟩ => (nomatch h)
  | ok time =>
    constructor
    · intro h
      exact ⟨time, rfl, by simpa using h⟩
    · rintro ⟨_, ⟨⟩, h⟩
      simpa using h

theorem SameUpTo.filter (h : SameUpTo asOf stamp left right) (p : α → Bool) :
    SameUpTo asOf stamp (left.filter p) (right.filter p) := by
  rw [SameUpTo, List.filter_comm, h, List.filter_comm]

theorem hidesLater_comprehend {test : α → Except ε Bool}
    (h : ∀ row time, stamp row = .ok time → asOf < time → test row = .ok false) :
    HidesLater asOf stamp (comprehend test) := by
  have hskip : ∀ row, notLater asOf stamp row = false → test row = .ok false := by
    intro row hrow
    obtain ⟨time, htime, hlater⟩ := notLater_eq_false.mp hrow
    exact h row time htime hlater
  intro left right hsame
  rw [← comprehend_filter hskip left, ← comprehend_filter hskip right, hsame]

theorem hidesLater_foldlM {step : β → α → Except ε β}
    (h : ∀ state row time, stamp row = .ok time → asOf < time → step state row = .ok state)
    (state : β) : HidesLater asOf stamp fun rows => rows.foldlM step state := by
  have hskip : ∀ state row, notLater asOf stamp row = false → step state row = .ok state := by
    intro state row hrow
    obtain ⟨time, htime, hlater⟩ := notLater_eq_false.mp hrow
    exact h state row time htime hlater
  intro left right hsame
  change left.foldlM step state = right.foldlM step state
  rw [← foldlM_filter hskip left, ← foldlM_filter hskip right, hsame]

theorem HidesLater.map {γ : Type} {query : List α → β} (h : HidesLater asOf stamp query)
    (answer : β → γ) : HidesLater asOf stamp fun rows => answer (query rows) :=
  fun left right hsame => congrArg answer (h left right hsame)

theorem HidesLater.filter {query : List α → β} (h : HidesLater asOf stamp query) (p : α → Bool) :
    HidesLater asOf stamp fun rows => query (rows.filter p) :=
  fun left right hsame => h (left.filter p) (right.filter p) (hsame.filter p)

/-! ### The newest row -/

variable [DecidableLE τ]

/-- One row of the search: a row up to the time takes the place of an older or equally old one. -/
def select (asOf : τ) (stamp : α → Except ε τ) (selected : Option (α × τ)) (row : α) :
    Except ε (Option (α × τ)) := do
  let time ← stamp row
  if asOf < time then return selected
  else
    match selected with
    | none => return some (row, time)
    | some (_, newest) => return if newest ≤ time then some (row, time) else selected

/-- `selected` is the last row of the greatest stamp up to the time, if there is any. -/
inductive Newest (asOf : τ) (stamp : α → Except ε τ) (rows : List α) : Option (α × τ) → Prop
  | absent (later : ∀ row ∈ rows, ∃ time, stamp row = .ok time ∧ asOf < time) :
      Newest asOf stamp rows none
  | found (before after : List α) (row : α) (time : τ) (split : rows = before ++ row :: after)
      (read : stamp row = .ok time) (upTo : ¬ asOf < time)
      (oldest : ∀ other ∈ before, ∀ t, stamp other = .ok t → ¬ asOf < t → t ≤ time)
      (older : ∀ other ∈ after, ∀ t, stamp other = .ok t → ¬ asOf < t → t < time) :
      Newest asOf stamp rows (some (row, time))

variable {rows : List α} {row : α} {selected next : Option (α × τ)}

omit [DecidableLT τ] [DecidableLE τ] in
/-- A row after the time, or older than the selected one, is passed over. -/
theorem Newest.passOver {time : τ} (h : Newest asOf stamp rows selected)
    (htime : stamp row = .ok time)
    (hpast : asOf < time ∨ ∃ first newest, selected = some (first, newest) ∧ time < newest) :
    Newest asOf stamp (rows ++ [row]) selected := by
  cases h with
  | absent later =>
    have hlater : asOf < time := by
      rcases hpast with hlater | ⟨_, _, hnone, _⟩
      · exact hlater
      · cases hnone
    refine .absent fun other hother => ?_
    rcases List.mem_append.mp hother with hold | hnew
    · exact later other hold
    · obtain rfl := List.mem_singleton.mp hnew
      exact ⟨time, htime, hlater⟩
  | found before after first newest split read upTo oldest older =>
    refine .found before (after ++ [row]) first newest ?_ read upTo oldest ?_
    · rw [split, List.append_assoc, List.cons_append]
    · intro other hother t ht hupTo
      rcases List.mem_append.mp hother with hold | hnew
      · exact older other hold t ht hupTo
      · obtain rfl := List.mem_singleton.mp hnew
        rw [htime] at ht
        cases ht
        rcases hpast with hlater | ⟨_, _, hselected, holder⟩
        · exact absurd hlater hupTo
        · cases hselected
          exact holder

omit [DecidableLT τ] [DecidableLE τ] in
/-- A row up to the time, and no older than the selected one, is selected in its place. -/
theorem Newest.takeOver {time : τ} (h : Newest asOf stamp rows selected)
    (htime : stamp row = .ok time) (hupTo : ¬ asOf < time)
    (hnewer : ∀ first newest, selected = some (first, newest) → newest ≤ time) :
    Newest asOf stamp (rows ++ [row]) (some (row, time)) := by
  refine .found rows [] row time rfl htime hupTo ?_ fun _ hother => (nomatch hother)
  intro other hother t ht hupTo'
  cases h with
  | absent later =>
    obtain ⟨u, hu, hlater⟩ := later other hother
    rw [hu] at ht
    cases ht
    exact absurd hlater hupTo'
  | found before after first newest split read upTo oldest older =>
    have hle := hnewer first newest rfl
    rw [split] at hother
    rcases List.mem_append.mp hother with hbefore | hafter
    · exact (oldest other hbefore t ht hupTo').trans hle
    · rcases List.mem_cons.mp hafter with rfl | hafter
      · rw [read] at ht
        cases ht
        exact hle
      · exact ((older other hafter t ht hupTo').le).trans hle

theorem Newest.select (htotal : ∀ t u : τ, t ≤ u ∨ u ≤ t) (h : Newest asOf stamp rows selected)
    (hselect : select asOf stamp selected row = .ok next) :
    Newest asOf stamp (rows ++ [row]) next := by
  obtain ⟨time, htime, hselect⟩ := except_bind_eq_ok.mp hselect
  by_cases hlater : asOf < time
  · rw [if_pos hlater] at hselect
    cases hselect
    exact h.passOver htime (.inl hlater)
  · rw [if_neg hlater] at hselect
    cases selected with
    | none =>
      cases hselect
      exact h.takeOver htime hlater fun _ _ hnone => nomatch hnone
    | some found =>
      obtain ⟨first, newest⟩ := found
      dsimp only at hselect
      by_cases hnewer : newest ≤ time
      · rw [if_pos hnewer] at hselect
        cases hselect
        refine h.takeOver htime hlater fun _ _ hselected => ?_
        cases hselected
        exact hnewer
      · rw [if_neg hnewer] at hselect
        cases hselect
        have holder : time < newest :=
          lt_of_le_not_ge ((htotal newest time).resolve_left hnewer) hnewer
        exact h.passOver htime (.inr ⟨first, newest, rfl, holder⟩)

theorem hidesLater_select :
    HidesLater asOf stamp fun rows => rows.foldlM (select asOf stamp) none := by
  apply hidesLater_foldlM
  intro selected row time htime hlater
  exact except_bind_eq_ok.mpr ⟨time, htime, if_pos hlater⟩

/-- The search finds the newest row, or raises what a stamp raised. -/
theorem foldlM_select (htotal : ∀ t u : τ, t ≤ u ∨ u ≤ t) (rows : List α) :
    (∃ e, rows.foldlM (select asOf stamp) none = .error e ∧
        ∃ row ∈ rows, stamp row = .error e) ∨
      ∃ selected, rows.foldlM (select asOf stamp) none = .ok selected ∧
        Newest asOf stamp rows selected := by
  induction rows using List.reverseRecOn with
  | nil => exact .inr ⟨none, rfl, .absent fun _ hrow => absurd hrow List.not_mem_nil⟩
  | append_singleton rows row ih =>
    rw [List.foldlM_append]
    rcases ih with ⟨e, hfold, first, hmem, hraised⟩ | ⟨selected, hfold, hnewest⟩
    · exact .inl ⟨e, by rw [hfold]; rfl, first, List.mem_append_left _ hmem, hraised⟩
    · rw [hfold]
      change (∃ e, (TimedRows.select asOf stamp selected row).bind pure = .error e ∧ _) ∨
        ∃ final, (TimedRows.select asOf stamp selected row).bind pure = .ok final ∧ _
      cases hstamp : stamp row with
      | error e =>
        refine .inl ⟨e, ?_, row, List.mem_append_right _ List.mem_cons_self, hstamp⟩
        rw [TimedRows.select, hstamp]
        rfl
      | ok time =>
        obtain ⟨next, hnext⟩ : ∃ next, TimedRows.select asOf stamp selected row = .ok next := by
          refine exists_bind_eq_ok hstamp ?_
          split_ifs
          · exact ⟨_, rfl⟩
          · cases selected <;> exact ⟨_, rfl⟩
        refine .inr ⟨next, ?_, hnewest.select htotal hnext⟩
        rw [hnext]
        rfl

end OptionResearch.TimedRows
