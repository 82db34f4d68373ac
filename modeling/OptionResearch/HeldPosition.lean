import OptionResearch.StrategyStateMachine

/-!
# Can a held position be cancelled?

Over the states a machine goes through, `CANCELLED` follows `OPEN` in exactly one way: a roll is
pending, it fills in part, and the part-filled roll is cancelled like a part-filled entry. The
table itself forgets which of the two `PARTIALLY_OPEN` it is.
-/

namespace OptionResearch

open Effect AuditTrail

namespace LifecycleState

/-- The states in which a position is held and no fill is outstanding on an entry. -/
def held : List LifecycleState :=
  [.open, .managementPending, .exitSignaled, .exitPending, .partiallyClosed, .rollSignaled,
    .rollPending, .expired, .pendingExerciseOrAssignment]

/-- The states a machine can be in once it has been in `OPEN`. -/
def afterOpen : List LifecycleState := held ++ [.partiallyOpen, .closed, .cancelled, .failed]

theorem held_of_allowed {s t : LifecycleState} (h : t ∈ s.allowedTransitions) (ht : t ∈ held) :
    t = .open ∨ s ∈ held := by
  revert s t
  decide +kernel

theorem afterOpen_of_allowed {s t : LifecycleState} (h : t ∈ s.allowedTransitions)
    (hs : s ∈ afterOpen) : t ∈ afterOpen := by
  revert s t
  decide +kernel

theorem rollPending_of_allowed {s : LifecycleState} (h : .partiallyOpen ∈ s.allowedTransitions)
    (hs : s ∈ afterOpen) : s = .rollPending := by
  revert s
  decide +kernel

theorem partiallyOpen_of_allowed {s : LifecycleState} (h : .cancelled ∈ s.allowedTransitions)
    (hs : s ∈ afterOpen) : s = .partiallyOpen := by
  revert s
  decide +kernel

end LifecycleState

open LifecycleState

/-- What the states gone through say about the last of them. -/
structure HeldHistory (path : List LifecycleState) (last : LifecycleState) : Prop where
  ends : path.getLast? = some last
  opened : last ∈ held → .open ∈ path
  stays : .open ∈ path → last ∈ afterOpen
  rolled : .open ∈ path → last = .partiallyOpen → [.rollPending, .partiallyOpen] <:+ path
  cancelled : .open ∈ path → last = .cancelled →
    [.rollPending, .partiallyOpen, .cancelled] <:+ path

theorem heldHistory_configured : HeldHistory [.configured] .configured where
  ends := rfl
  opened h := absurd h (by decide)
  stays h := absurd h (by decide)
  rolled h := absurd h (by decide)
  cancelled h := absurd h (by decide)

/-- One allowed transition. -/
theorem HeldHistory.step {path : List LifecycleState} {s t : LifecycleState}
    (h : HeldHistory path s) (hallowed : t ∈ s.allowedTransitions) :
    HeldHistory (path ++ [t]) t := by
  have hopen (hmem : .open ∈ path ++ [t]) : .open ∈ path ∨ t = .open := by
    rcases List.mem_append.mp hmem with hmem | hmem
    · exact Or.inl hmem
    · exact Or.inr (List.mem_singleton.mp hmem).symm
  refine ⟨List.getLast?_concat, ?_, ?_, ?_, ?_⟩
  · intro ht
    rcases held_of_allowed hallowed ht with rfl | hs
    · exact List.mem_append_right _ (List.mem_singleton_self _)
    · exact List.mem_append_left _ (h.opened hs)
  · intro hmem
    rcases hopen hmem with hmem | rfl
    · exact afterOpen_of_allowed hallowed (h.stays hmem)
    · decide
  · rintro hmem rfl
    rcases hopen hmem with hmem | hne
    · obtain rfl := rollPending_of_allowed hallowed (h.stays hmem)
      obtain ⟨init, rfl⟩ := List.getLast?_eq_some_iff.mp h.ends
      exact ⟨init, by rw [List.append_assoc]; rfl⟩
    · cases hne
  · rintro hmem rfl
    rcases hopen hmem with hmem | hne
    · obtain rfl := partiallyOpen_of_allowed hallowed (h.stays hmem)
      obtain ⟨init, hinit⟩ := h.rolled hmem rfl
      exact ⟨init, by rw [← hinit, List.append_assoc]; rfl⟩
    · cases hne

namespace StrategyStateMachine

variable (text : PyText)

/-- Every call of the sequence returns. -/
def AllReturn (calls : List TransitionCall) (machine : StrategyStateMachine) : Prop :=
  ∀ pre call, pre ++ [call] <+: calls →
    ∃ record, (exec (transition text call) (after text pre machine)).1 = .ok record

/-- Once the machine has been in `OPEN` it is never in `CANCELLED`. -/
def NeverCancelsHeld (calls : List TransitionCall) (machine : StrategyStateMachine) : Prop :=
  ∀ pre mid, pre ++ mid <+: calls → (after text pre machine).state = .open →
    (after text (pre ++ mid) machine).state ≠ .cancelled

variable {text}

theorem AllReturn.of_prefix {pre calls : List TransitionCall} {machine : StrategyStateMachine}
    (h : AllReturn text calls machine) (hpre : pre <+: calls) : AllReturn text pre machine :=
  fun front call hfront => h front call (hfront.trans hpre)

/-- The states gone through are the targets of the calls, and they have the history the table
allows. -/
theorem heldHistory_after {calls : List TransitionCall}
    {strategyIdentifier positionIdentifier softwareGitCommit : String}
    (h : AllReturn text calls (fresh strategyIdentifier positionIdentifier softwareGitCommit)) :
    HeldHistory (.configured :: calls.map (·.nextState))
      (after text calls (fresh strategyIdentifier positionIdentifier softwareGitCommit)).state := by
  induction calls using List.reverseRecOn with
  | nil => exact heldHistory_configured
  | append_singleton calls call ih =>
    have ih := ih (h.of_prefix (List.prefix_append _ _))
    obtain ⟨record, hrecord⟩ := h calls call List.prefix_rfl
    rw [after_concat, List.map_append, ← List.cons_append]
    rcases transition_cases text (after text calls (fresh strategyIdentifier positionIdentifier
      softwareGitCommit)) call with ⟨record', hexec, haccepts⟩ | ⟨x, hexec, _⟩
    · rw [hexec]
      have hstate : record'.nextState = call.nextState := by
        rw [haccepts.built]
        rfl
      change HeldHistory _ record'.nextState
      rw [hstate]
      exact ih.step haccepts.allowed
    · rw [hexec] at hrecord
      cases hrecord

/-- The last call of a sequence of successes decides the state. -/
theorem state_after_concat {calls : List TransitionCall} {call : TransitionCall}
    {strategyIdentifier positionIdentifier softwareGitCommit : String}
    (h : AllReturn text (calls ++ [call])
      (fresh strategyIdentifier positionIdentifier softwareGitCommit)) :
    (after text (calls ++ [call])
      (fresh strategyIdentifier positionIdentifier softwareGitCommit)).state = call.nextState := by
  have hends := (heldHistory_after h).ends
  rw [List.map_append, ← List.cons_append] at hends
  exact (Option.some.inj (List.getLast?_concat.symm.trans hends)).symm

/-- Three consecutive targets are those of three consecutive calls. -/
theorem calls_of_targets {calls : List TransitionCall} {a b c : LifecycleState}
    (h : [a, b, c] <:+: calls.map (·.nextState)) :
    ∃ start rolls fills cancels rest, calls = start ++ [rolls, fills, cancels] ++ rest ∧
      rolls.nextState = a ∧ cancels.nextState = c := by
  obtain ⟨front, back, htargets⟩ := h
  obtain ⟨head, rest, rfl, hhead, _⟩ := List.map_eq_append_iff.mp htargets.symm
  obtain ⟨start, roll, rfl, _, hroll⟩ := List.map_eq_append_iff.mp hhead
  rcases roll with _ | ⟨rolls, _ | ⟨fills, _ | ⟨cancels, _ | ⟨_, _⟩⟩⟩⟩
  all_goals simp only [List.map_cons, List.map_nil, List.cons.injEq, reduceCtorEq, and_true,
    and_false] at hroll
  exact ⟨start, rolls, fills, cancels, rest, rfl, hroll.1, hroll.2.2⟩

/-- A roll is pending only after some call opened the position. -/
theorem opened_before_roll {start : List TransitionCall} {rolls : TransitionCall}
    {strategyIdentifier positionIdentifier softwareGitCommit : String}
    (h : AllReturn text (start ++ [rolls])
      (fresh strategyIdentifier positionIdentifier softwareGitCommit))
    (hrolls : rolls.nextState = .rollPending) :
    ∃ before opens between, start ++ [rolls] = before ++ [opens] ++ between ∧
      opens.nextState = .open := by
  have hopened := (heldHistory_after h).opened
  rw [state_after_concat h, hrolls] at hopened
  have hmem := hopened (by decide)
  rw [List.mem_cons, or_iff_right (by decide), List.mem_map] at hmem
  obtain ⟨opens, hopens, hstate⟩ := hmem
  obtain ⟨before, between, hsplit⟩ := List.append_of_mem hopens
  refine ⟨before, opens, between, ?_, hstate⟩
  rw [hsplit, List.append_assoc]
  rfl

/-- A held position is never cancelled exactly when no roll is pending, part-filled and cancelled
in three consecutive calls. -/
theorem neverCancelsHeld_iff {calls : List TransitionCall}
    {strategyIdentifier positionIdentifier softwareGitCommit : String}
    (h : AllReturn text calls (fresh strategyIdentifier positionIdentifier softwareGitCommit)) :
    NeverCancelsHeld text calls (fresh strategyIdentifier positionIdentifier softwareGitCommit) ↔
      ¬ [LifecycleState.rollPending, .partiallyOpen, .cancelled] <:+: calls.map (·.nextState) := by
  constructor
  · intro hnever htargets
    obtain ⟨start, rolls, fills, cancels, rest, rfl, hrolls, hcancels⟩ := calls_of_targets htargets
    have hpending : start ++ [rolls] <+: start ++ [rolls, fills, cancels] ++ rest :=
      ⟨[fills, cancels] ++ rest, by simp⟩
    have hwhole : start ++ [rolls, fills] ++ [cancels] <+:
        start ++ [rolls, fills, cancels] ++ rest := ⟨rest, by simp⟩
    -- the pending roll is of a position that has been open
    obtain ⟨before, opens, between, hsplit, hopens⟩ :=
      opened_before_roll (h.of_prefix hpending) hrolls
    have hbefore : before ++ [opens] <+: start ++ [rolls, fills, cancels] ++ rest := by
      have hopened : before ++ [opens] <+: start ++ [rolls] := ⟨between, hsplit.symm⟩
      exact hopened.trans hpending
    have hcalls : before ++ [opens] ++ (between ++ [fills, cancels]) =
        start ++ [rolls, fills] ++ [cancels] := by
      rw [← List.append_assoc, ← hsplit]
      simp
    refine hnever (before ++ [opens]) (between ++ [fills, cancels]) ?_ ?_ ?_
    · rw [hcalls]
      exact hwhole
    · rw [state_after_concat (h.of_prefix hbefore), hopens]
    · rw [hcalls, state_after_concat (h.of_prefix hwhole), hcancels]
  · intro hnot pre mid hbelow hopen hcancel
    have hpre := heldHistory_after (h.of_prefix ((List.prefix_append pre mid).trans hbelow))
    have hall := heldHistory_after (h.of_prefix hbelow)
    have hends := hpre.ends
    rw [hopen] at hends
    have hmem : LifecycleState.open ∈ .configured :: (pre ++ mid).map (·.nextState) := by
      rw [List.map_append, ← List.cons_append]
      exact List.mem_append_left _ (List.mem_of_getLast? hends)
    rcases List.suffix_cons_iff.mp (hall.cancelled hmem hcancel) with heq | hsuffix
    · cases heq
    · exact hnot (hsuffix.isInfix.trans (hbelow.map _).isInfix)

/-! ### A part-filled roll that is cancelled -/

theorem allReturn_cons {call : TransitionCall} {rest : List TransitionCall}
    {machine : StrategyStateMachine} {record : StateTransitionRecord}
    (hcall : (exec (transition text call) machine).1 = .ok record)
    (hrest : AllReturn text rest (exec (transition text call) machine).2) :
    AllReturn text (call :: rest) machine := by
  intro pre next hbelow
  rcases pre with _ | ⟨first, pre⟩
  · obtain ⟨rfl, _⟩ := List.cons_prefix_cons.mp hbelow
    exact ⟨record, hcall⟩
  · obtain ⟨rfl, hrestPrefix⟩ := List.cons_prefix_cons.mp hbelow
    exact hrest pre next hrestPrefix

theorem allReturn_nil (machine : StrategyStateMachine) : AllReturn text [] machine :=
  fun _ _ h => absurd (List.prefix_nil.mp h) (by simp)

/-- A call without guards. -/
def callTo (nextState : LifecycleState) : TransitionCall where
  nextState := nextState
  timestamp := { wall := 0, utcoffset := some 0 }
  trigger := .fillReconciliation
  guardResults := []
  actionPlan := []
  dataSnapshotReference := "snapshot"

/-- From configuration to a roll that fills in part and then goes to `last`. -/
def partialRollTo (last : LifecycleState) : List TransitionCall :=
  [.waitingForEntry, .entrySignaled, .entryPending, .open, .rollSignaled, .rollPending,
    .partiallyOpen, last].map callTo

theorem neverCancelsHeld_iff_filled :
    NeverCancelsHeld plainText (partialRollTo .open) (fresh "s1" "p-1" "deadbeef") ∧
      (after plainText (partialRollTo .open) (fresh "s1" "p-1" "deadbeef")).state = .open := by
  have hreturns : AllReturn plainText (partialRollTo .open) (fresh "s1" "p-1" "deadbeef") := by
    repeat' refine allReturn_cons rfl ?_
    exact allReturn_nil _
  exact ⟨(neverCancelsHeld_iff hreturns).mpr (by decide), rfl⟩

/-- Every call returns, the machine is in `OPEN`, and it ends in `CANCELLED`. -/
theorem not_neverCancelsHeld :
    AllReturn plainText (partialRollTo .cancelled) (fresh "s1" "p-1" "deadbeef") ∧
      ¬ NeverCancelsHeld plainText (partialRollTo .cancelled) (fresh "s1" "p-1" "deadbeef") := by
  constructor
  · repeat' refine allReturn_cons rfl ?_
    exact allReturn_nil _
  · intro hnever
    exact hnever ((partialRollTo .cancelled).take 4) ((partialRollTo .cancelled).drop 4)
      List.prefix_rfl rfl rfl

end StrategyStateMachine
end OptionResearch
