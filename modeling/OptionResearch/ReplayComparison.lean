import OptionResearch.ReplayBranches
import OptionResearch.ReplayJson
import Mathlib.Logic.Encodable.Basic

/-!
# Comparing branches

`compare_branches` of `replay.py` compares two timelines by the checksums of their events. A
checksum covers the branch an event was appended to beside what happened, so that two timelines
match exactly when they have the same content and, position by position, were written on the same
branch.
-/

namespace OptionResearch

structure ReplayComparison where
  leftBranchId : String
  rightBranchId : String
  matching : Bool
  differingEvents : List Nat
  differingPolicyDecisions : List Nat
  differingFills : List Nat
  differingScenarios : List Nat
  differingAnalytics : List Nat

/-- What `json` and `hashlib` document: reading back what was written gives the JSON form, the text
depends on that form only, and the texts of different timestamps and the digests of different texts
differ. -/
structure ReplayText.Distinguishing (text : ReplayText) : Prop where
  roundTrip : ∀ compact value encoded, text.dumps compact value = .ok encoded →
    text.loads encoded = .ok (text.jsonForm value)
  dumps_form : ∀ compact value other, text.jsonForm value = text.jsonForm other →
    text.dumps compact value = text.dumps compact other
  isoformat_injective : Function.Injective text.isoformat
  sha256_injective : Function.Injective text.sha256

namespace BacktestReplayEngine

open Effect

variable (engine : BacktestReplayEngine)

/-- The timelines differ at that position. -/
def differAt (left right : List ReplayTimelineEvent) (index : Nat) : Bool :=
  match left[index]?, right[index]? with
  | some event, some other => event.checksum != other.checksum
  | _, _ => true

/-- One of the timelines has an event at that position whose type is `name` or contains it. -/
def ofCategory (left right : List ReplayTimelineEvent) (name : String) (index : Nat) : Bool :=
  [left, right].any fun timeline =>
    timeline[index]?.any fun event =>
      event.eventType == name || decide (name.toList <:+: event.eventType.toList)

def compareBranches (leftBranchId rightBranchId : String) : ReplayComparison :=
  let left := engine.branchTimeline leftBranchId
  let right := engine.branchTimeline rightBranchId
  let differing := (List.range (max left.length right.length)).filter (differAt left right)
  let categories := fun name => differing.filter (ofCategory left right name)
  { leftBranchId, rightBranchId
    matching := differing.isEmpty
    differingEvents := differing
    differingPolicyDecisions := categories "policy"
    differingFills := categories "fill"
    differingScenarios := categories "scenario"
    differingAnalytics := categories "analytics" }

variable {engine} {engine' : BacktestReplayEngine} {text : ReplayText} {call : Call}
  {left right : List ReplayTimelineEvent}

/-! ### Recorded events -/

/-- The event is what an append to that branch recorded. -/
def AppendedTo (text : ReplayText) (branchId : String) (event : ReplayTimelineEvent) : Prop :=
  ∃ request, request.branchId = branchId ∧
    buildEvent text request event.eventSequence = .ok event

/-- Every event of every timeline was appended to some branch. -/
def Recorded (text : ReplayText) (engine : BacktestReplayEngine) : Prop :=
  ∀ branchId, ∀ event ∈ engine.branchTimeline branchId, ∃ origin, AppendedTo text origin event

theorem Unbranched.recorded (h : engine.Unbranched) : engine.Recorded text := by
  intro branchId event hevent
  rw [branchTimeline, h.branchEvents] at hevent
  exact absurd hevent List.not_mem_nil

theorem Outcome.recorded (h : Outcome text engine call engine') (hsound : engine.Sound)
    (hrecorded : engine.Recorded text) : engine'.Recorded text := by
  have hsame : engine'.branchTimeline = engine.branchTimeline → engine'.Recorded text := by
    intro heq branchId event hevent
    rw [heq] at hevent
    exact hrecorded branchId event hevent
  cases h with
  | viewed hsame' => exact hsame (branchTimeline_eq hsame'.branchEvents)
  | snapped request snapshot => exact hsame rfl
  | opened request _ _ _ hbranchEvents =>
    apply hsame
    funext branchId
    rw [branchTimeline, hbranchEvents, hsound.separate.items_setdefault, branchTimeline]
  | branched request branch _ =>
    intro branchId event hevent
    change event ∈ NamedLists.items _ branchId at hevent
    rw [hsound.separate.items_store, Function.update_apply] at hevent
    split_ifs at hevent
    · exact hrecorded request.parentBranchId event
        ((hsound.inheritedEvents_isBeginning request).mem hevent)
    · exact hrecorded branchId event hevent
  | entered request => exact hsame (hsound.separate.items_setdefault request.branchId)
  | appended request added hbuild =>
    intro branchId event hevent
    change event ∈ NamedLists.items _ branchId at hevent
    rw [hsound.separate.items_append, Function.update_apply] at hevent
    split_ifs at hevent
    · rcases List.mem_append.mp hevent with hold | hnew
      · exact hrecorded request.branchId event hold
      · obtain rfl := List.mem_singleton.mp hnew
        refine ⟨request.branchId, request, rfl, ?_⟩
        rw [eventSequence_buildEvent hbuild]
        exact hbuild
    · exact hrecorded branchId event hevent

theorem recorded_after (h : engine.Unbranched) (text : ReplayText) (calls : List Call) :
    (engine.after text calls).Recorded text :=
  (afterCalls_keeps
    (R := fun s t : BacktestReplayEngine =>
      s.Sound ∧ s.Recorded text → t.Sound ∧ t.Recorded text)
    (fun _ => id) (fun _ _ _ hst htu h => htu (hst h))
    (fun call s hs =>
      ⟨(perform_outcome text s call).sound hs.1, (perform_outcome text s call).recorded hs.1 hs.2⟩)
    ⟨h.sound, h.recorded⟩).2

/-! ### What a checksum tells -/

variable {request request' : AppendBranchEvent} {event other : ReplayTimelineEvent} {place : Nat}

theorem jsonForm_checksumContent (request : AppendBranchEvent) (place : Nat) :
    text.jsonForm (checksumContent text request place) =
      .dict [("branch_id", .str request.branchId), ("event_sequence", .int place),
        ("event_type", .str request.eventType), ("payload", text.jsonForm (.dict request.payload)),
        ("timestamp", .str (text.isoformat request.timestamp))] := by
  simp [checksumContent, PyText.jsonForm, PyText.jsonEntries, StableSort.sortBy,
    List.insertionSort, List.orderedInsert]

/-- What an append records, in the JSON forms of what it was given. -/
theorem buildEvent_spec (htext : text.Distinguishing)
    (h : buildEvent text request place = .ok event) :
    event.timestamp = request.timestamp ∧ event.eventType = request.eventType ∧
      event.payload = freeze (text.jsonForm (.dict request.payload)) ∧
      ∃ encoded, text.dumps true (checksumContent text request place) = .ok encoded ∧
        event.checksum = text.sha256 encoded := by
  obtain ⟨checksum, hchecksum, h⟩ := except_bind_eq_ok.mp h
  obtain ⟨payload, hpayload, h⟩ := except_bind_eq_ok.mp h
  cases h
  obtain ⟨encoded, hencoded, hchecksum⟩ := except_bind_eq_ok.mp hchecksum
  cases hchecksum
  obtain ⟨written, hwritten, hpayload⟩ := except_bind_eq_ok.mp hpayload
  obtain ⟨copied, hcopied, hpayload⟩ := except_bind_eq_ok.mp hpayload
  cases hpayload
  rw [htext.roundTrip false _ _ hwritten] at hcopied
  cases hcopied
  exact ⟨rfl, rfl, rfl, encoded, hencoded, rfl⟩

/-- Two events at one place have one checksum exactly when one branch recorded one content. -/
theorem checksum_eq_iff (htext : text.Distinguishing)
    (hevent : buildEvent text request place = .ok event)
    (hother : buildEvent text request' place = .ok other) :
    event.checksum = other.checksum ↔ request.branchId = request'.branchId ∧
      event.timestamp = other.timestamp ∧ event.eventType = other.eventType ∧
      event.payload = other.payload := by
  obtain ⟨htime, htype, hpayload, encoded, hencoded, hchecksum⟩ := buildEvent_spec htext hevent
  obtain ⟨htime', htype', hpayload', encoded', hencoded', hchecksum'⟩ :=
    buildEvent_spec htext hother
  have hforms : event.checksum = other.checksum ↔
      text.jsonForm (checksumContent text request place) =
        text.jsonForm (checksumContent text request' place) := by
    rw [hchecksum, hchecksum', htext.sha256_injective.eq_iff]
    constructor
    · rintro rfl
      have hread := htext.roundTrip true _ _ hencoded
      rw [htext.roundTrip true _ _ hencoded'] at hread
      exact (Except.ok.inj hread).symm
    · intro hform
      have hwritten := htext.dumps_form true _ _ hform
      rw [hencoded, hencoded'] at hwritten
      exact Except.ok.inj hwritten
  have hpayloads : event.payload = other.payload ↔
      text.jsonForm (.dict request.payload) = text.jsonForm (.dict request'.payload) := by
    rw [hpayload, hpayload']
    exact ⟨freeze_injective (text.isJson_jsonForm _) (text.isJson_jsonForm _), congrArg freeze⟩
  rw [hforms, hpayloads, htime, htime', htype, htype', jsonForm_checksumContent,
    jsonForm_checksumContent]
  simp only [PyValue.dict.injEq, List.cons.injEq, Prod.mk.injEq, PyValue.str.injEq, true_and,
    and_true, htext.isoformat_injective.eq_iff]
  tauto

/-- The timelines have one length and, position by position, one timestamp, event type and
payload. -/
structure SameContent (left right : List ReplayTimelineEvent) : Prop where
  length_eq : left.length = right.length
  event_eq : ∀ (index : Nat) (event other : ReplayTimelineEvent), left[index]? = some event →
    right[index]? = some other →
      event.timestamp = other.timestamp ∧ event.eventType = other.eventType ∧
      event.payload = other.payload

/-- Position by position, the events were appended to one branch. -/
def SameOrigins (text : ReplayText) (left right : List ReplayTimelineEvent) : Prop :=
  ∀ (index : Nat) (event other : ReplayTimelineEvent), left[index]? = some event →
    right[index]? = some other →
      ∃ branchId, AppendedTo text branchId event ∧ AppendedTo text branchId other

theorem differAt_eq_false_iff {index : Nat} :
    differAt left right index = false ↔ ∃ event other, left[index]? = some event ∧
      right[index]? = some other ∧ event.checksum = other.checksum := by
  rw [differAt]
  rcases left[index]? with _ | event
  · exact iff_of_false Bool.noConfusion fun ⟨_, _, hevent, _⟩ => (nomatch hevent)
  · rcases right[index]? with _ | other
    · exact iff_of_false Bool.noConfusion fun ⟨_, _, _, hother, _⟩ => (nomatch hother)
    · rw [bne_eq_false_iff_eq]
      constructor
      · intro h
        exact ⟨event, other, rfl, rfl, h⟩
      · rintro ⟨_, _, ⟨⟩, ⟨⟩, h⟩
        exact h

/-- Timelines match exactly when they have one length and one checksum at every position. -/
theorem matching_iff {leftBranchId rightBranchId : String} :
    (engine.compareBranches leftBranchId rightBranchId).matching = true ↔
      (engine.branchTimeline leftBranchId).length =
          (engine.branchTimeline rightBranchId).length ∧
        ∀ (index : Nat) (event other : ReplayTimelineEvent),
          (engine.branchTimeline leftBranchId)[index]? = some event →
            (engine.branchTimeline rightBranchId)[index]? = some other →
              event.checksum = other.checksum := by
  change (List.filter _ _).isEmpty = true ↔ _
  generalize engine.branchTimeline leftBranchId = left
  generalize engine.branchTimeline rightBranchId = right
  rw [List.isEmpty_iff, List.filter_eq_nil_iff]
  simp only [List.mem_range, Bool.not_eq_true, differAt_eq_false_iff]
  constructor
  · intro h
    have hlength : left.length = right.length := by
      by_contra hne
      obtain ⟨event, other, hevent, hother, _⟩ := h (min left.length right.length) (by omega)
      have hleft := (List.getElem?_eq_some_iff.mp hevent).1
      have hright := (List.getElem?_eq_some_iff.mp hother).1
      omega
    refine ⟨hlength, fun index event other hevent hother => ?_⟩
    have hleft := (List.getElem?_eq_some_iff.mp hevent).1
    obtain ⟨_, _, hevent', hother', hchecksum⟩ := h index (by omega)
    rw [hevent] at hevent'
    rw [hother] at hother'
    cases hevent'
    cases hother'
    exact hchecksum
  · rintro ⟨hlength, h⟩ index hindex
    have hleft := List.getElem?_eq_getElem (l := left) (i := index) (by omega)
    have hright := List.getElem?_eq_getElem (l := right) (i := index) (by omega)
    exact ⟨_, _, hleft, hright, h index _ _ hleft hright⟩

/-- Timelines match exactly when they have the same content from the same branches. -/
theorem matching_iff_content (htext : text.Distinguishing) (hsound : engine.Sound)
    (hrecorded : engine.Recorded text) {leftBranchId rightBranchId : String} :
    (engine.compareBranches leftBranchId rightBranchId).matching = true ↔
      SameContent (engine.branchTimeline leftBranchId) (engine.branchTimeline rightBranchId) ∧
        SameOrigins text (engine.branchTimeline leftBranchId)
          (engine.branchTimeline rightBranchId) := by
  rw [matching_iff]
  constructor
  · rintro ⟨hlength, hchecksum⟩
    have hevents : ∀ (index : Nat) (event other : ReplayTimelineEvent),
        (engine.branchTimeline leftBranchId)[index]? = some event →
          (engine.branchTimeline rightBranchId)[index]? = some other →
            (event.timestamp = other.timestamp ∧ event.eventType = other.eventType ∧
              event.payload = other.payload) ∧
              ∃ branchId, AppendedTo text branchId event ∧ AppendedTo text branchId other := by
      intro index event other hevent hother
      obtain ⟨_, request, rfl, hbuild⟩ :=
        hrecorded leftBranchId event (List.mem_of_getElem? hevent)
      obtain ⟨_, request', rfl, hbuild'⟩ :=
        hrecorded rightBranchId other (List.mem_of_getElem? hother)
      have hplace : other.eventSequence = event.eventSequence :=
        ((hsound.numbered rightBranchId).number_eq hother).trans
          ((hsound.numbered leftBranchId).number_eq hevent).symm
      have heq := hchecksum index event other hevent hother
      rw [checksum_eq_iff htext hbuild (hplace ▸ hbuild')] at heq
      exact ⟨heq.2, request.branchId, ⟨request, rfl, hbuild⟩, request', heq.1.symm, hbuild'⟩
    exact ⟨⟨hlength, fun index event other hevent hother =>
        (hevents index event other hevent hother).1⟩,
      fun index event other hevent hother => (hevents index event other hevent hother).2⟩
  · rintro ⟨hcontent, horigins⟩
    refine ⟨hcontent.length_eq, fun index event other hevent hother => ?_⟩
    obtain ⟨_, ⟨request, rfl, hbuild⟩, request', hbranch, hbuild'⟩ :=
      horigins index event other hevent hother
    have hplace : other.eventSequence = event.eventSequence :=
      ((hsound.numbered rightBranchId).number_eq hother).trans
        ((hsound.numbered leftBranchId).number_eq hevent).symm
    rw [checksum_eq_iff htext hbuild (hplace ▸ hbuild')]
    exact ⟨hbranch.symm, hcontent.event_eq index event other hevent hother⟩

/-- The comparison is one of contents exactly where equal contents were written on the same
branches. -/
theorem compareBranches_content_iff (text : ReplayText) (htext : text.Distinguishing)
    (engine : BacktestReplayEngine) (hfresh : engine.Unbranched) (calls : List Call)
    (leftBranchId rightBranchId : String) :
    (((engine.after text calls).compareBranches leftBranchId rightBranchId).matching = true ↔
        SameContent ((engine.after text calls).branchTimeline leftBranchId)
          ((engine.after text calls).branchTimeline rightBranchId)) ↔
      (SameContent ((engine.after text calls).branchTimeline leftBranchId)
          ((engine.after text calls).branchTimeline rightBranchId) →
        SameOrigins text ((engine.after text calls).branchTimeline leftBranchId)
          ((engine.after text calls).branchTimeline rightBranchId)) := by
  rw [matching_iff_content htext (hfresh.sound.after calls) (recorded_after hfresh text calls)]
  exact and_iff_left_iff_imp

/-! ### Two branches that receive one event -/

theorem update_injective {α β : Type} [DecidableEq α] {f : α → β} (hf : Function.Injective f)
    (special : α) {value : β} (hvalue : ∀ a, f a ≠ value) :
    Function.Injective (Function.update f special value) := by
  intro a b h
  simp only [Function.update_apply] at h
  split_ifs at h with ha hb hb
  · rw [ha, hb]
  · exact absurd h.symm (hvalue b)
  · exact absurd h (hvalue a)
  · exact hf h

/-- The JSON form that the checksum of `noteOn branchId` covers, where it is the first event. -/
def noteForm (branchId : String) : PyValue :=
  .dict [("branch_id", .str branchId), ("event_sequence", .int 0), ("event_type", .str "entry"),
    ("payload", .dict []), ("timestamp", .str "1970-01-01T00:00:00+00:00")]

def mainNote : String :=
  "\x7b\"branch_id\":\"main\",\"event_sequence\":0,\"event_type\":\"entry\"," ++
    "\"payload\":\x7b\x7d,\"timestamp\":\"1970-01-01T00:00:00+00:00\"\x7d"

def altNote : String :=
  "\x7b\"branch_id\":\"alt-1\",\"event_sequence\":0,\"event_type\":\"entry\"," ++
    "\"payload\":\x7b\x7d,\"timestamp\":\"1970-01-01T00:00:00+00:00\"\x7d"

/-- What `json.dumps` writes for the forms of two notes and of their payload. -/
def writeNote : PyValue → Except Exc String
  | .dict [] => .ok "\x7b\x7d"
  | .dict [("branch_id", .str "main"), ("event_sequence", .int 0), ("event_type", .str "entry"),
      ("payload", .dict []), ("timestamp", .str "1970-01-01T00:00:00+00:00")] => .ok mainNote
  | .dict [("branch_id", .str "alt-1"), ("event_sequence", .int 0), ("event_type", .str "entry"),
      ("payload", .dict []), ("timestamp", .str "1970-01-01T00:00:00+00:00")] => .ok altNote
  | _ => .error ⟨.other "NotImplementedError", "not a note"⟩

def readNote (encoded : String) : Except Exc PyValue :=
  if encoded = mainNote then .ok (noteForm "main")
  else if encoded = altNote then .ok (noteForm "alt-1")
  else .ok (.dict [])

/-- A text of nothing but as many marks as an encoding of the time. -/
def markTime (time : DateTime) : String :=
  String.ofList (List.replicate (Encodable.encode (time.wall, time.utcoffset)) '~')

/-- The texts of two notes, with their SHA-256 digests. Other texts and times have a mark of their
own. -/
def noteLabels : PyText where
  sha256 := Function.update
    (Function.update ("~" ++ ·) mainNote
      "36fd642f052d61951910ae1ab69080d930ed55516f9a979f14df0f6b127f33de")
    altNote "55a9150920b1aef8dd0e00d4d2facfbbeb876a663b1d1c2af6f3e53d5d5291a7"
  repr _ := ""
  isoformat := Function.update markTime ⟨0, some 0⟩ "1970-01-01T00:00:00+00:00"
  parseFloat _ := none

def noteText : ReplayText where
  toPyText := noteLabels
  dumps _ value := writeNote (noteLabels.jsonForm value)
  loads := readNote

theorem readNote_writeNote {form : PyValue} {encoded : String}
    (h : writeNote form = .ok encoded) : readNote encoded = .ok form := by
  rw [writeNote.eq_def] at h
  split at h
  · cases h
    exact (if_neg (by decide)).trans (if_neg (by decide))
  · cases h
    exact if_pos rfl
  · cases h
    exact (if_neg (by decide)).trans (if_pos rfl)
  · cases h

theorem markTime_injective : Function.Injective markTime := by
  intro time other h
  have hlist := String.ofList_injective h
  have hencode := congrArg List.length hlist
  rw [List.length_replicate, List.length_replicate] at hencode
  have hpair := Encodable.encode_injective hencode
  cases time
  cases other
  cases hpair
  rfl

theorem markTime_ne {encoded : String} (mark : Char) (hmark : mark ∈ encoded.toList)
    (hother : mark ≠ '~') (time : DateTime) : markTime time ≠ encoded := by
  rintro rfl
  rw [markTime, String.toList_ofList] at hmark
  exact hother (List.eq_of_mem_replicate hmark)

theorem mark_append_ne {digest : String} (hmark : '~' ∉ digest.toList) (encoded : String) :
    "~" ++ encoded ≠ digest := by
  rintro rfl
  rw [String.toList_append] at hmark
  exact hmark (List.mem_append_left _ (by decide))

theorem noteText_distinguishing : noteText.Distinguishing where
  roundTrip _ _ _ h := readNote_writeNote h
  dumps_form _ _ _ h := congrArg writeNote h
  isoformat_injective :=
    update_injective markTime_injective _ (markTime_ne '1' (by decide) (by decide))
  sha256_injective := by
    have hmain : Function.Injective (Function.update ("~" ++ ·) mainNote
        "36fd642f052d61951910ae1ab69080d930ed55516f9a979f14df0f6b127f33de") :=
      update_injective (fun _ _ h => (String.append_right_inj "~").mp h) _
        (mark_append_ne (by decide))
    refine update_injective hmain _ fun encoded => ?_
    rw [Function.update_apply]
    split_ifs
    · decide
    · exact mark_append_ne (by decide) encoded

/-- Two branches, each with the same first event of its own. -/
def twoNotes : List Call :=
  [.initializeSession openMain, .createBranch forkAlt, .appendBranchEvent (noteOn "main"),
    .appendBranchEvent (noteOn "alt-1")]

/-- A branch that inherits the only event of its parent. -/
def inheritedNote : List Call :=
  [.initializeSession openMain, .appendBranchEvent (noteOn "main"), .createBranch forkAlt]

/-- What two events are compared by, beside their branch. -/
def eventContent (event : ReplayTimelineEvent) : DateTime × String × PyValue :=
  (event.timestamp, event.eventType, event.payload)

theorem sameContent_of_map (h : left.map eventContent = right.map eventContent) :
    SameContent left right := by
  refine ⟨by simpa only [List.length_map] using congrArg List.length h, ?_⟩
  intro index event other hevent hother
  have hmap := congrArg (·[index]?) h
  simp only [List.getElem?_map, hevent, hother, Option.map_some, Option.some.injEq] at hmap
  obtain ⟨htime, hrest⟩ := Prod.mk.inj hmap
  obtain ⟨htype, hpayload⟩ := Prod.mk.inj hrest
  exact ⟨htime, htype, hpayload⟩

theorem compareBranches_content_inherited :
    ((BacktestReplayEngine.after noteText { events := [] } inheritedNote).compareBranches
        "main" "alt-1").matching = true ↔
      SameContent
        ((BacktestReplayEngine.after noteText { events := [] } inheritedNote).branchTimeline "main")
        ((BacktestReplayEngine.after noteText { events := [] } inheritedNote).branchTimeline
          "alt-1") := by
  refine (compareBranches_content_iff noteText noteText_distinguishing { events := [] } ⟨rfl, rfl⟩
    inheritedNote "main" "alt-1").mpr fun _ index event other hevent hother => ?_
  obtain rfl : event = other := by
    rw [show (BacktestReplayEngine.after noteText { events := [] } inheritedNote).branchTimeline
      "alt-1" = (BacktestReplayEngine.after noteText { events := [] } inheritedNote).branchTimeline
      "main" from rfl, hevent] at hother
    exact Option.some.inj hother
  obtain ⟨origin, horigin⟩ := recorded_after ⟨rfl, rfl⟩ noteText inheritedNote "main" event
    (List.mem_of_getElem? hevent)
  exact ⟨origin, horigin, horigin⟩

/-- Two branches that received one and the same event do not match. -/
theorem compareBranches_twoNotes :
    ¬ ∀ (text : ReplayText) (engine : BacktestReplayEngine) (calls : List Call)
      (leftBranchId rightBranchId : String), text.Distinguishing → engine.Unbranched →
        (((engine.after text calls).compareBranches leftBranchId rightBranchId).matching = true ↔
          SameContent ((engine.after text calls).branchTimeline leftBranchId)
            ((engine.after text calls).branchTimeline rightBranchId)) := by
  intro h
  have hmain : ((BacktestReplayEngine.after noteText { events := [] } twoNotes).branchTimeline
      "main").map eventContent = [(⟨0, some 0⟩, "entry", .dict [])] := rfl
  have halt : ((BacktestReplayEngine.after noteText { events := [] } twoNotes).branchTimeline
      "alt-1").map eventContent = [(⟨0, some 0⟩, "entry", .dict [])] := rfl
  have hmatching := (h noteText { events := [] } twoNotes "main" "alt-1" noteText_distinguishing
    ⟨rfl, rfl⟩).mpr (sameContent_of_map (hmain.trans halt.symm))
  exact absurd hmatching (by decide)

end BacktestReplayEngine
end OptionResearch
