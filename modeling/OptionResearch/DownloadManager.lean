import OptionResearch.InsertionDict
import OptionResearch.PartialEffects
import OptionResearch.PythonValues
import Mathlib.Data.List.Induction
import Mathlib.Data.Set.Function

/-!
# Resumable downloads

`DownloadManager` of `download/manager.py` keeps what an interrupted download resumes from under
the digest of provider, resource and destination joined by colons. Downloads of a set of targets
are independent exactly when no two of these targets have one key, which the joined text does not
ensure: a colon inside a part moves the border between two of them.
-/

namespace OptionResearch

/-- A `pathlib.Path`, as its POSIX text. -/
structure Path where
  asPosix : String
  deriving DecidableEq, Repr

structure DownloadManagerConfig where
  maxRetries : Int := 3
  baseBackoffSeconds : ℚ := 1 / 5
  maxBackoffSeconds : ℚ := 5
  timeoutSeconds : ℚ := 30

/-- State needed to resume partial downloads across attempts. -/
structure DownloadResumeState where
  bytesDownloaded : Int
  etag : Option String
  lastModified : Option String
  updatedAt : String
  deriving DecidableEq, Repr

/-- What a download is of: the triple that its key is made from. -/
structure DownloadTarget where
  provider : String
  resourceId : String
  destination : Path
  deriving DecidableEq, Repr

structure DownloadRequest where
  target : DownloadTarget
  timeoutSeconds : ℚ
  metadata : Payload
  resumeState : Option DownloadResumeState

structure DownloadResult where
  succeeded : Bool
  bytesDownloaded : Int
  checksum : Option String
  resumeState : Option DownloadResumeState
  error : Option String

structure DownloadAttempt where
  attemptNumber : Nat
  timestamp : String
  succeeded : Bool
  error : Option String

structure DownloadExecution where
  request : DownloadRequest
  attempts : List DownloadAttempt
  result : DownloadResult

/-- The arguments of one `run_download`. The transport and the hook are what they answer at each
attempt, and `now` is the clock there. -/
structure DownloadCall where
  target : DownloadTarget
  transport : Nat → DownloadRequest → DownloadResult
  cancellationHook : Option (Nat → Bool)
  metadata : Option Payload
  timeoutSeconds : Option ℚ
  now : Nat → String

/-- What happens to a target: a transport call with its result, or a clear. -/
inductive DownloadEvent where
  | exchange (request : DownloadRequest) (result : DownloadResult)
  | cleared (target : DownloadTarget)

namespace DownloadEvent

def target : DownloadEvent → DownloadTarget
  | exchange request _ => request.target
  | cleared target => target

/-- What the target resumes from after the event. -/
def leaves (event : DownloadEvent) (resumeState : Option DownloadResumeState) :
    Option DownloadResumeState :=
  match event with
  | exchange _ result =>
    if result.succeeded then none
    else match result.resumeState with
      | some returned => some returned
      | none => resumeState
  | cleared _ => none

end DownloadEvent

/-- The latest state that the transports have returned for the target since its last success or
clear. -/
def resumesFrom (target : DownloadTarget) (log : List DownloadEvent) :
    Option DownloadResumeState :=
  (log.filter (·.target = target)).foldl (fun resumeState event => event.leaves resumeState) none

theorem resumesFrom_concat (target : DownloadTarget) (log : List DownloadEvent)
    (event : DownloadEvent) :
    resumesFrom target (log ++ [event]) =
      if event.target = target then event.leaves (resumesFrom target log)
      else resumesFrom target log := by
  rw [resumesFrom, List.filter_append, List.foldl_append]
  by_cases h : event.target = target
  · rw [List.filter_cons_of_pos (by simpa using h), if_pos h]
    rfl
  · rw [List.filter_cons_of_neg (by simpa using h), if_neg h]
    rfl

/-- What the manager stores, and the log of what happened to the targets. -/
structure DownloadSession where
  resumeStateByKey : InsertionDict String DownloadResumeState
  log : List DownloadEvent

namespace DownloadSession

def start : DownloadSession := ⟨InsertionDict.empty, []⟩

/-- A transport call with what the manager keeps of its result. -/
def exchange (key : String) (request : DownloadRequest) (result : DownloadResult)
    (session : DownloadSession) : DownloadSession where
  resumeStateByKey :=
    let stored := match result.resumeState with
      | some resumeState => session.resumeStateByKey.set key resumeState
      | none => session.resumeStateByKey
    if result.succeeded then stored.pop key else stored
  log := session.log ++ [.exchange request result]

def clear (key : String) (target : DownloadTarget) (session : DownloadSession) :
    DownloadSession where
  resumeStateByKey := session.resumeStateByKey.pop key
  log := session.log ++ [.cleared target]

end DownloadSession

structure DownloadManager where
  config : DownloadManagerConfig
  sleeper : ℚ → Except Exc Unit
  /-- `hashlib.sha256(value.encode()).hexdigest()`. -/
  hexdigest : String → String

namespace DownloadManager

variable (manager : DownloadManager)

/-- `_download_key`. -/
def downloadKey (target : DownloadTarget) : String :=
  manager.hexdigest
    (target.provider ++ ":" ++ target.resourceId ++ ":" ++ target.destination.asPosix)

/-- `_request`. -/
def request (call : DownloadCall) (resumeState : Option DownloadResumeState) :
    DownloadRequest where
  target := call.target
  timeoutSeconds :=
    match call.timeoutSeconds with
    | some seconds => if seconds = 0 then manager.config.timeoutSeconds else seconds
    | none => manager.config.timeoutSeconds
  metadata := call.metadata.getD []
  resumeState := resumeState

/-- `_backoff_seconds`. The power is an `int`, and a `float` cannot be multiplied with one beyond
its range. -/
def backoffSeconds (attemptNumber : Nat) : Except Exc ℚ :=
  if 1024 ≤ attemptNumber - 1 then
    .error ⟨.other "OverflowError", "int too large to convert to float"⟩
  else
    .ok (min (manager.config.baseBackoffSeconds * 2 ^ (attemptNumber - 1))
      manager.config.maxBackoffSeconds)

def cancelledExecution (call : DownloadCall) (attempts : List DownloadAttempt)
    (resumeState : Option DownloadResumeState) : DownloadExecution where
  request := manager.request call resumeState
  attempts := attempts ++ [⟨attempts.length + 1, call.now (attempts.length + 1), false,
    some "cancelled"⟩]
  result :=
    { succeeded := false
      bytesDownloaded := match resumeState with
        | some resumeState => resumeState.bytesDownloaded
        | none => 0
      checksum := none
      resumeState := resumeState
      error := some "cancelled" }

/-- The loop over the attempts that `remaining` are left of; `last` is the variable `result`,
which no attempt has bound yet when there is none. -/
def attemptFrom (call : DownloadCall) (resumeState : Option DownloadResumeState)
    (attempts : List DownloadAttempt) (last : Option DownloadResult) :
    Nat → Effect DownloadSession Exc DownloadExecution
  | 0 =>
    match last with
    | some result => pure ⟨manager.request call resumeState, attempts, result⟩
    | none =>
      Effect.raising (.error ⟨.other "UnboundLocalError",
        "cannot access local variable 'result' where it is not associated with a value"⟩)
  | remaining + 1 =>
    let attemptNumber := attempts.length + 1
    if call.cancellationHook.any (· attemptNumber) then
      pure (manager.cancelledExecution call attempts resumeState)
    else do
      let request := manager.request call resumeState
      let result := call.transport attemptNumber request
      let attempts :=
        attempts ++ [⟨attemptNumber, call.now attemptNumber, result.succeeded, result.error⟩]
      modify (DownloadSession.exchange (manager.downloadKey call.target) request result)
      if result.succeeded then
        pure ⟨request, attempts, result⟩
      else do
        Effect.raising
          (if 0 < remaining then manager.backoffSeconds attemptNumber >>= manager.sleeper
          else .ok ())
        let resumeState := match result.resumeState with
          | some returned => some returned
          | none => resumeState
        attemptFrom call resumeState attempts (some result) remaining

def getResumeState (session : DownloadSession) (target : DownloadTarget) :
    Option DownloadResumeState :=
  session.resumeStateByKey.get? (manager.downloadKey target)

def runDownload (call : DownloadCall) : Effect DownloadSession Exc DownloadExecution := do
  let session ← get
  manager.attemptFrom call (manager.getResumeState session call.target) [] none
    (manager.config.maxRetries + 1).toNat

def clearResumeState (target : DownloadTarget) : Effect DownloadSession Exc Unit :=
  modify (DownloadSession.clear (manager.downloadKey target) target)

end DownloadManager

namespace DownloadSession

variable {key : String} {request : DownloadRequest} {result : DownloadResult}
  {session : DownloadSession}

/-- A transport call writes one key only, as its event says. -/
theorem get?_exchange (other : String) :
    (exchange key request result session).resumeStateByKey.get? other =
      if other = key then
        (DownloadEvent.exchange request result).leaves (session.resumeStateByKey.get? key)
      else session.resumeStateByKey.get? other := by
  simp only [exchange, DownloadEvent.leaves]
  by_cases hkey : other = key
  · subst hkey
    cases result.succeeded <;> cases result.resumeState <;>
      simp [InsertionDict.get?_set, InsertionDict.get?_pop]
  · cases result.succeeded <;> cases result.resumeState <;>
      simp [InsertionDict.get?_set, InsertionDict.get?_pop, hkey]

end DownloadSession

/-- Every transport call of the log resumes from what the log before it left for its target. -/
def ResumesOwn (log : List DownloadEvent) : Prop :=
  ∀ before request result after, log = before ++ .exchange request result :: after →
    request.resumeState = resumesFrom request.target before

theorem ResumesOwn.concat {log : List DownloadEvent} {event : DownloadEvent} (h : ResumesOwn log)
    (hevent : ∀ request result, event = .exchange request result →
      request.resumeState = resumesFrom request.target log) :
    ResumesOwn (log ++ [event]) := by
  intro before request result after hsplit
  rcases List.eq_nil_or_concat after with rfl | ⟨init, last, rfl⟩
  · obtain ⟨rfl, hlast⟩ := List.append_inj' hsplit rfl
    exact hevent request result (List.singleton_inj.mp hlast)
  · have hsplit' : log ++ [event] = (before ++ .exchange request result :: init) ++ [last] := by
      rw [hsplit, List.concat_eq_append, ← List.cons_append, List.append_assoc]
    exact h before request result init (List.append_inj' hsplit' rfl).1

namespace DownloadManager

variable {manager : DownloadManager} {targets : Set DownloadTarget} {session : DownloadSession}

/-- What is stored for each target is what the log left for it. -/
structure Tracks (manager : DownloadManager) (targets : Set DownloadTarget)
    (session : DownloadSession) : Prop where
  stored : ∀ target ∈ targets,
    manager.getResumeState session target = resumesFrom target session.log
  resumesOwn : ResumesOwn session.log

theorem tracks_start : manager.Tracks targets DownloadSession.start where
  stored _ _ := rfl
  resumesOwn before _ _ _ h := absurd h.symm (by simp [DownloadSession.start])

/-- An event of one target, written under its key, is tracked where the keys tell the targets
apart. -/
theorem Tracks.step {after : DownloadSession} (event : DownloadEvent)
    (hinj : targets.InjOn manager.downloadKey) (h : manager.Tracks targets session)
    (hmem : event.target ∈ targets) (hlog : after.log = session.log ++ [event])
    (hwritten : ∀ other, after.resumeStateByKey.get? other =
      if other = manager.downloadKey event.target then
        event.leaves (session.resumeStateByKey.get? (manager.downloadKey event.target))
      else session.resumeStateByKey.get? other)
    (hevent : ∀ request result, event = .exchange request result →
      request.resumeState = manager.getResumeState session request.target) :
    manager.Tracks targets after where
  stored target htarget := by
    rw [hlog, resumesFrom_concat, getResumeState, hwritten]
    by_cases heq : event.target = target
    · subst heq
      rw [if_pos rfl, if_pos rfl, ← h.stored _ hmem, getResumeState]
    · have hkey : manager.downloadKey target ≠ manager.downloadKey event.target :=
        fun hkey => heq (hinj hmem htarget hkey.symm)
      rw [if_neg hkey, if_neg heq, ← h.stored target htarget, getResumeState]
  resumesOwn := by
    rw [hlog]
    refine h.resumesOwn.concat fun request result heq => ?_
    subst heq
    rw [hevent request result rfl]
    exact h.stored _ hmem

theorem Tracks.clear {target : DownloadTarget} (hinj : targets.InjOn manager.downloadKey)
    (h : manager.Tracks targets session) (hmem : target ∈ targets) :
    manager.Tracks targets (session.clear (manager.downloadKey target) target) :=
  h.step (.cleared target) hinj hmem rfl (fun _ => InsertionDict.get?_pop)
    fun _ _ heq => (nomatch heq)

/-- What the loop over the attempts can do to a session: it stops, or a transport call succeeds, or
one fails and the loop goes on from what it left. -/
inductive Attempting (manager : DownloadManager) (call : DownloadCall) :
    Option DownloadResumeState → Nat → DownloadSession → Except Exc DownloadExecution →
      DownloadSession → Prop
  | stopped {resumeState : Option DownloadResumeState} {remaining : Nat}
      {session : DownloadSession} {outcome : Except Exc DownloadExecution}
      (h : ∀ execution, outcome = .ok execution → execution.result.succeeded = false) :
      Attempting manager call resumeState remaining session outcome session
  | succeeded {resumeState : Option DownloadResumeState} {remaining : Nat}
      {session : DownloadSession} {execution : DownloadExecution} {result : DownloadResult}
      (h : result.succeeded = true) :
      Attempting manager call resumeState (remaining + 1) session (.ok execution)
        (session.exchange (manager.downloadKey call.target) (manager.request call resumeState)
          result)
  | failed {resumeState : Option DownloadResumeState} {remaining : Nat}
      {session after : DownloadSession} {outcome : Except Exc DownloadExecution}
      {result : DownloadResult} (h : result.succeeded = false)
      (hrest : Attempting manager call
        ((DownloadEvent.exchange (manager.request call resumeState) result).leaves resumeState)
        remaining
        (session.exchange (manager.downloadKey call.target) (manager.request call resumeState)
          result) outcome after) :
      Attempting manager call resumeState (remaining + 1) session outcome after

variable {call : DownloadCall} {resumeState : Option DownloadResumeState}
  {attempts : List DownloadAttempt} {last : Option DownloadResult} {remaining : Nat}
  {outcome : Except Exc DownloadExecution} {after : DownloadSession}

theorem attempting_attemptFrom (hlast : ∀ result ∈ last, result.succeeded = false) :
    manager.Attempting call resumeState remaining session
      (Effect.exec (manager.attemptFrom call resumeState attempts last remaining) session).1
      (Effect.exec (manager.attemptFrom call resumeState attempts last remaining) session).2 := by
  induction remaining generalizing session resumeState attempts last with
  | zero =>
    cases last with
    | none =>
      rw [attemptFrom]
      exact .stopped fun _ h => (nomatch h)
    | some result =>
      rw [attemptFrom]
      refine .stopped fun execution h => ?_
      cases h
      exact hlast result rfl
  | succ remaining ih =>
    rw [attemptFrom]
    by_cases hcancel : call.cancellationHook.any (· (attempts.length + 1)) = true
    · rw [if_pos hcancel]
      refine .stopped fun execution h => ?_
      cases h
      rfl
    · rw [if_neg hcancel, Effect.exec_modify_bind]
      generalize hresult : call.transport (attempts.length + 1)
        (manager.request call resumeState) = result
      cases hsucceeded : result.succeeded with
      | true =>
        rw [if_pos rfl]
        exact .succeeded hsucceeded
      | false =>
        rw [if_neg Bool.false_ne_true, Effect.exec_raising_bind]
        refine .failed hsucceeded ?_
        split
        · have hleaves : (DownloadEvent.exchange (manager.request call resumeState) result).leaves
              resumeState = match result.resumeState with
                | some returned => some returned
                | none => resumeState := by
            rw [DownloadEvent.leaves, hsucceeded]
            rfl
          rw [hleaves]
          exact ih fun _ h => Option.some_inj.mp h ▸ hsucceeded
        · exact .stopped fun _ h => (nomatch h)

namespace Attempting

/-- The loop makes no more transport calls than it has attempts left, all of them for its target. -/
theorem log_eq (h : manager.Attempting call resumeState remaining session outcome after) :
    ∃ events, after.log = session.log ++ events ∧ events.length ≤ remaining ∧
      ∀ event ∈ events, ∃ request result,
        event = .exchange request result ∧ request.target = call.target := by
  induction h with
  | stopped => exact ⟨[], (List.append_nil _).symm, Nat.zero_le _, by simp⟩
  | succeeded => exact ⟨[_], rfl, by simp, fun _ h => ⟨_, _, List.mem_singleton.mp h, rfl⟩⟩
  | @failed resumeState _ _ _ _ result _ _ ih =>
    obtain ⟨events, hlog, hlength, htarget⟩ := ih
    refine ⟨.exchange (manager.request call resumeState) result :: events, ?_,
      Nat.succ_le_succ hlength, ?_⟩
    · rw [hlog, DownloadSession.exchange, List.append_assoc, List.singleton_append]
    · rintro event (_ | ⟨_, hevent⟩)
      · exact ⟨_, _, rfl, rfl⟩
      · exact htarget event hevent

/-- No other key is written. -/
theorem get?_of_ne (h : manager.Attempting call resumeState remaining session outcome after)
    {key : String} (hkey : key ≠ manager.downloadKey call.target) :
    after.resumeStateByKey.get? key = session.resumeStateByKey.get? key := by
  induction h with
  | stopped => rfl
  | succeeded => rw [DownloadSession.get?_exchange, if_neg hkey]
  | failed _ _ ih => rw [ih, DownloadSession.get?_exchange, if_neg hkey]

/-- A success leaves nothing to resume from. -/
theorem emptied (h : manager.Attempting call resumeState remaining session outcome after)
    {execution : DownloadExecution} (houtcome : outcome = .ok execution)
    (hsucceeded : execution.result.succeeded = true) :
    manager.getResumeState after call.target = none := by
  induction h with
  | stopped hstopped => exact absurd (hstopped execution houtcome) (by simp [hsucceeded])
  | succeeded hresult =>
    rw [getResumeState, DownloadSession.get?_exchange, if_pos rfl, DownloadEvent.leaves,
      if_pos hresult]
  | failed _ _ ih => exact ih houtcome

/-- The loop is tracked when it starts from what is stored for its target. -/
theorem tracks (hinj : targets.InjOn manager.downloadKey) (hmem : call.target ∈ targets)
    (h : manager.Attempting call resumeState remaining session outcome after)
    (htracks : manager.Tracks targets session)
    (hresume : resumeState = manager.getResumeState session call.target) :
    manager.Tracks targets after := by
  have hexchange : ∀ {resumeState session} (result : DownloadResult),
      manager.Tracks targets session →
      resumeState = manager.getResumeState session call.target →
      manager.Tracks targets (session.exchange (manager.downloadKey call.target)
        (manager.request call resumeState) result) := by
    intro resumeState session result htracks hresume
    refine htracks.step (.exchange (manager.request call resumeState) result) hinj hmem rfl
      DownloadSession.get?_exchange fun request _ heq => ?_
    cases heq
    exact hresume
  induction h with
  | stopped => exact htracks
  | succeeded => exact hexchange _ htracks hresume
  | failed _ _ ih =>
    refine ih (hexchange _ htracks hresume) ?_
    rw [getResumeState, DownloadSession.get?_exchange, if_pos rfl, hresume]
    rfl

end Attempting

inductive DownloadCommand where
  | run (call : DownloadCall)
  | clear (target : DownloadTarget)

namespace DownloadCommand

def target : DownloadCommand → DownloadTarget
  | run call => call.target
  | clear target => target

end DownloadCommand

def perform (manager : DownloadManager) : DownloadCommand → Effect DownloadSession Exc Unit
  | .run call => discard (manager.runDownload call)
  | .clear target => manager.clearResumeState target

/-- The session after a sequence of calls of a new manager, each returning or raising. -/
def sessionAfter (manager : DownloadManager) (commands : List DownloadCommand) : DownloadSession :=
  Effect.afterCalls manager.perform DownloadSession.start commands

theorem sessionAfter_concat (commands : List DownloadCommand) (command : DownloadCommand) :
    manager.sessionAfter (commands ++ [command]) =
      (Effect.exec (manager.perform command) (manager.sessionAfter commands)).2 := by
  rw [sessionAfter, Effect.afterCalls, List.foldl_append]
  rfl

theorem attempting_runDownload :
    manager.Attempting call (manager.getResumeState session call.target)
      (manager.config.maxRetries + 1).toNat session
      (Effect.exec (manager.runDownload call) session).1
      (Effect.exec (manager.runDownload call) session).2 := by
  rw [runDownload, Effect.exec_get_bind]
  exact attempting_attemptFrom fun _ h => (nomatch h)

theorem perform_run_snd :
    (Effect.exec (manager.perform (.run call)) session).2 =
      (Effect.exec (manager.runDownload call) session).2 :=
  Effect.exec_discard_snd _ _

theorem Tracks.perform {command : DownloadCommand} (hinj : targets.InjOn manager.downloadKey)
    (hmem : command.target ∈ targets) (h : manager.Tracks targets session) :
    manager.Tracks targets (Effect.exec (manager.perform command) session).2 := by
  cases command with
  | run call =>
    rw [perform_run_snd]
    exact attempting_runDownload.tracks hinj hmem h rfl
  | clear target => exact h.clear hinj hmem

theorem tracks_sessionAfter {commands : List DownloadCommand}
    (hinj : targets.InjOn manager.downloadKey)
    (hmem : ∀ command ∈ commands, command.target ∈ targets) :
    manager.Tracks targets (manager.sessionAfter commands) := by
  induction commands using List.reverseRecOn with
  | nil => exact tracks_start
  | append_singleton commands command ih =>
    rw [sessionAfter_concat]
    refine (ih fun c hc => hmem c (List.mem_append_left _ hc)).perform hinj ?_
    exact hmem command (List.mem_append_right _ List.mem_cons_self)

/-- The last call of a sequence keeps the resume states apart by target. -/
structure PerTarget (manager : DownloadManager) (targets : Set DownloadTarget)
    (commands : List DownloadCommand) (command : DownloadCommand) : Prop where
  /-- A run makes at most `max_retries + 1` transport calls, all of them for its target. -/
  bounded : ∀ call, command = .run call → ∃ events,
    (manager.sessionAfter (commands ++ [command])).log =
        (manager.sessionAfter commands).log ++ events ∧
      (events.length : Int) ≤ manager.config.maxRetries + 1 ∧
      ∀ event ∈ events, ∃ request result,
        event = .exchange request result ∧ request.target = call.target
  /-- A transport call carries the latest state returned for its target since the last success or
  clear. -/
  resumesOwn : ResumesOwn (manager.sessionAfter (commands ++ [command])).log
  /-- A success or a clear empties it. -/
  emptied : (∀ call, command = .run call → ∃ execution,
      (Effect.exec (manager.runDownload call) (manager.sessionAfter commands)).1 = .ok execution ∧
        execution.result.succeeded = true) →
    manager.getResumeState (manager.sessionAfter (commands ++ [command])) command.target = none
  /-- Another target resumes from what it did before. -/
  isolated : ∀ target ∈ targets, target ≠ command.target →
    manager.getResumeState (manager.sessionAfter (commands ++ [command])) target =
      manager.getResumeState (manager.sessionAfter commands) target

theorem getResumeState_perform_of_ne {command : DownloadCommand} {target : DownloadTarget}
    (hkey : manager.downloadKey target ≠ manager.downloadKey command.target) :
    manager.getResumeState (Effect.exec (manager.perform command) session).2 target =
      manager.getResumeState session target := by
  cases command with
  | run call =>
    rw [perform_run_snd]
    exact attempting_runDownload.get?_of_ne hkey
  | clear cleared => exact InsertionDict.get?_pop.trans (if_neg hkey)

/-- A download that fails once, is given something to resume from and is then cancelled. -/
def interrupted (target : DownloadTarget) (resumeState : DownloadResumeState) : DownloadCall where
  target := target
  transport := fun _ _ =>
    { succeeded := false
      bytesDownloaded := resumeState.bytesDownloaded
      checksum := none
      resumeState := some resumeState
      error := some "interrupted" }
  cancellationHook := some fun attemptNumber => 1 < attemptNumber
  metadata := none
  timeoutSeconds := none
  now := fun _ => resumeState.updatedAt

theorem getResumeState_interrupted (hretries : 0 ≤ manager.config.maxRetries)
    (target : DownloadTarget) (state : DownloadResumeState) :
    manager.getResumeState
      (Effect.exec (manager.runDownload (interrupted target state)) session).2 target =
        some state := by
  have hexchange : ∀ request result (session : DownloadSession), result.succeeded = false →
      result.resumeState = some state →
      manager.getResumeState (session.exchange (manager.downloadKey target) request result)
        target = some state := by
    intro request result session hsucceeded hreturned
    rw [getResumeState, DownloadSession.get?_exchange, if_pos rfl, DownloadEvent.leaves, hreturned,
      hsucceeded]
    rfl
  obtain ⟨retries, hremaining⟩ : ∃ retries, (manager.config.maxRetries + 1).toNat = retries + 1 :=
    ⟨manager.config.maxRetries.toNat, by omega⟩
  rw [runDownload, Effect.exec_get_bind, hremaining, attemptFrom, if_neg (by simp [interrupted]),
    Effect.exec_modify_bind, if_neg (by simp [interrupted]), Effect.exec_raising_bind]
  split
  · cases retries with
    | zero =>
      rw [attemptFrom]
      exact hexchange _ _ _ rfl rfl
    | succ retries =>
      rw [attemptFrom, if_pos (by simp [interrupted])]
      exact hexchange _ _ _ rfl rfl
  · exact hexchange _ _ _ rfl rfl

/-- The resume states of a set of targets are kept apart in every sequence of calls exactly when no
two of the targets have one download key. -/
theorem perTarget_iff (hretries : 0 ≤ manager.config.maxRetries) (targets : Set DownloadTarget) :
    (∀ commands command, (∀ c ∈ commands ++ [command], c.target ∈ targets) →
        manager.PerTarget targets commands command) ↔
      targets.InjOn manager.downloadKey := by
  constructor
  · intro h t ht u hu hkey
    by_contra hne
    let state : DownloadResumeState := ⟨1, none, none, ""⟩
    have honly : ∀ c ∈ [] ++ [DownloadCommand.run (interrupted t state)], c.target ∈ targets :=
      fun c hc => List.mem_singleton.mp hc ▸ ht
    have hisolated := (h [] (.run (interrupted t state)) honly).isolated u hu (Ne.symm hne)
    rw [sessionAfter_concat, perform_run_snd, getResumeState, ← hkey] at hisolated
    have hstored : manager.getResumeState (Effect.exec (manager.runDownload (interrupted t state))
        (manager.sessionAfter [])).2 t = some state := getResumeState_interrupted hretries t state
    rw [getResumeState, hisolated] at hstored
    cases hstored
  · intro hinj commands command hmem
    have hlast : command.target ∈ targets :=
      hmem command (List.mem_append_right _ List.mem_cons_self)
    refine ⟨?_, (tracks_sessionAfter hinj hmem).resumesOwn, ?_, ?_⟩
    · rintro call rfl
      have hattempting : manager.Attempting call _ _ (manager.sessionAfter commands) _ _ :=
        attempting_runDownload
      obtain ⟨events, hlog, hlength, htarget⟩ := hattempting.log_eq
      refine ⟨events, ?_, by omega, htarget⟩
      rw [sessionAfter_concat, perform_run_snd, hlog]
    · intro hended
      rw [sessionAfter_concat]
      cases command with
      | run call =>
        obtain ⟨execution, houtcome, hsucceeded⟩ := hended call rfl
        rw [perform_run_snd]
        exact attempting_runDownload.emptied houtcome hsucceeded
      | clear target => exact InsertionDict.get?_pop.trans (if_pos rfl)
    · intro target htarget hne
      rw [sessionAfter_concat]
      exact getResumeState_perform_of_ne fun hkey => hne (hinj htarget hlast hkey)

theorem perTarget_single :
    0 ≤ (DownloadManagerConfig.maxRetries {}) ∧
      ∀ commands command,
        (∀ c ∈ commands ++ [command], c.target ∈ ({⟨"cboe", "SPX", ⟨"a.csv"⟩⟩} : Set _)) →
          PerTarget ⟨{}, fun _ => .ok (), fun text => text⟩ {⟨"cboe", "SPX", ⟨"a.csv"⟩⟩}
            commands command :=
  ⟨by decide, (@perTarget_iff ⟨{}, fun _ => .ok (), fun text => text⟩ (by decide)
    {⟨"cboe", "SPX", ⟨"a.csv"⟩⟩}).mpr (Set.injOn_singleton _ _)⟩

/-- What stands before the first separator, and what after it, is found again. -/
theorem append_cons_inj {α : Type} {sep : α} {xs xs' ys ys' : List α} (hxs : sep ∉ xs)
    (hxs' : sep ∉ xs') (h : xs ++ sep :: ys = xs' ++ sep :: ys') : xs = xs' ∧ ys = ys' := by
  induction xs generalizing xs' with
  | nil =>
    cases xs' with
    | nil => exact ⟨rfl, (List.cons.inj h).2⟩
    | cons x _ => exact absurd (List.cons.inj h).1 (List.ne_of_not_mem_cons hxs')
  | cons x xs ih =>
    cases xs' with
    | nil => exact absurd (List.cons.inj h).1.symm (List.ne_of_not_mem_cons hxs)
    | cons x' xs' =>
      obtain ⟨rfl, htail⟩ := List.cons.inj h
      obtain ⟨rfl, hys⟩ := ih (List.not_mem_of_not_mem_cons hxs)
        (List.not_mem_of_not_mem_cons hxs') htail
      exact ⟨rfl, hys⟩

theorem joined_inj {s s' rest rest' : String} (hs : ':' ∉ s.toList) (hs' : ':' ∉ s'.toList)
    (h : s ++ (":" ++ rest) = s' ++ (":" ++ rest')) : s = s' ∧ rest = rest' := by
  have hlist := congrArg String.toList h
  simp only [String.toList_append] at hlist
  obtain ⟨hfirst, hrest⟩ := append_cons_inj hs hs' hlist
  exact ⟨String.toList_inj.mp hfirst, String.toList_inj.mp hrest⟩

/-- Providers and resources without a colon have keys of their own, up to collisions of the
digest. -/
theorem downloadKey_injOn (hdigest : manager.hexdigest.Injective)
    (htargets : ∀ target ∈ targets,
      ':' ∉ target.provider.toList ∧ ':' ∉ target.resourceId.toList) :
    targets.InjOn manager.downloadKey := by
  rintro ⟨provider, resourceId, ⟨destination⟩⟩ ht ⟨provider', resourceId', ⟨destination'⟩⟩ hu hkey
  have htext := hdigest hkey
  simp only [String.append_assoc] at htext
  obtain ⟨rfl, hrest⟩ := joined_inj (htargets _ ht).1 (htargets _ hu).1 htext
  obtain ⟨rfl, rfl⟩ := joined_inj (htargets _ ht).2 (htargets _ hu).2 hrest
  rfl

/-- The ticker has a colon, and so has the destination of the other download. -/
theorem resume_colliding :
    (⟨"polygon", "O:SPY", ⟨"chain.csv"⟩⟩ : DownloadTarget) ≠ ⟨"polygon", "O", ⟨"SPY:chain.csv"⟩⟩ ∧
      ∀ hexdigest : String → String,
        let manager : DownloadManager := ⟨{}, fun _ => .ok (), hexdigest⟩
        let target : DownloadTarget := ⟨"polygon", "O", ⟨"SPY:chain.csv"⟩⟩
        let state : DownloadResumeState := ⟨4096, some "v1", none, "2024-01-02T00:00:00+00:00"⟩
        manager.getResumeState (manager.sessionAfter
            [.run (interrupted ⟨"polygon", "O:SPY", ⟨"chain.csv"⟩⟩ state)]) target = some state ∧
          ¬ manager.PerTarget {⟨"polygon", "O:SPY", ⟨"chain.csv"⟩⟩, target} []
            (.run (interrupted ⟨"polygon", "O:SPY", ⟨"chain.csv"⟩⟩ state)) := by
  refine ⟨by decide, fun hexdigest => ?_⟩
  intro manager target state
  have hkey : manager.downloadKey target =
      manager.downloadKey ⟨"polygon", "O:SPY", ⟨"chain.csv"⟩⟩ := congrArg hexdigest (by decide)
  have hstored : manager.getResumeState (manager.sessionAfter
      [.run (interrupted ⟨"polygon", "O:SPY", ⟨"chain.csv"⟩⟩ state)]) target = some state := by
    rw [← List.nil_append [_], sessionAfter_concat, perform_run_snd, getResumeState, hkey]
    exact getResumeState_interrupted (show (0 : Int) ≤ 3 by decide) _ state
  refine ⟨hstored, fun h => ?_⟩
  have hisolated := h.isolated target (Set.mem_insert_of_mem _ rfl) (by decide)
  rw [List.nil_append, hstored] at hisolated
  cases hisolated

end DownloadManager

end OptionResearch
