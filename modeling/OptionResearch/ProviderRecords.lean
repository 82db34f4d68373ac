import OptionResearch.InsertionDict
import OptionResearch.PartialEffects
import OptionResearch.PythonValues
import Mathlib.Data.List.Induction
import Mathlib.Data.String.Basic

/-!
# Alerts and jobs of the providers

`AlertService` of `data/provider_runtime.py` and `ProviderOperationsService` of
`data/provider_operations.py`. The alert of a fingerprint tells its last incident: the emissions
since the one that opened it, which is the first of all or the first after a resolution. Of the
jobs, whatever is called and whatever raises, nothing that was recorded is taken back: a job keeps
its identity and its events, its status is that of its last event, and a checkpoint keeps the
response it was first recorded with.
-/

namespace OptionResearch

structure Alert where
  fingerprint : String
  provider : String
  rule : String
  severity : String
  firstSeen : DateTime
  lastSeen : DateTime
  occurrences : ℕ := 1
  acknowledged : Bool := false
  resolved : Bool := false
  deriving DecidableEq

/-- `emit(provider, rule, severity, now)`. -/
structure Emission where
  provider : String
  rule : String
  severity : String
  now : DateTime
  deriving DecidableEq

structure AlertService where
  alerts : InsertionDict String Alert

namespace AlertService

/-- The methods; `acknowledge` and `resolve` take a fingerprint. -/
inductive Call where
  | emit (emission : Emission)
  | acknowledge (fingerprint : String)
  | resolve (fingerprint : String)
  deriving DecidableEq

variable (sha256 : String → String)

def fingerprintOf (emission : Emission) : String := sha256 s!"{emission.provider}:{emission.rule}"

/-- The alert that opens with an emission. -/
def opened (emission : Emission) : Alert where
  fingerprint := fingerprintOf sha256 emission
  provider := emission.provider
  rule := emission.rule
  severity := emission.severity
  firstSeen := emission.now
  lastSeen := emission.now

/-- An open alert sees one more emission. -/
def seenAgain (alert : Alert) (emission : Emission) : Alert :=
  { alert with
    lastSeen := emission.now
    occurrences := alert.occurrences + 1
    severity := max alert.severity emission.severity }

def emit (service : AlertService) (emission : Emission) : AlertService :=
  let fingerprint := fingerprintOf sha256 emission
  match service.alerts.get? fingerprint with
  | some alert =>
      if !alert.resolved then ⟨service.alerts.set fingerprint (seenAgain alert emission)⟩
      else ⟨service.alerts.set fingerprint (opened sha256 emission)⟩
  | none => ⟨service.alerts.set fingerprint (opened sha256 emission)⟩

/-- Writes the alert of a fingerprint; an unknown one raises and nothing is written. -/
def update (service : AlertService) (fingerprint : String) (change : Alert → Alert) :
    AlertService :=
  match service.alerts.get? fingerprint with
  | some alert => ⟨service.alerts.set fingerprint (change alert)⟩
  | none => service

def acknowledge (service : AlertService) (fingerprint : String) : AlertService :=
  service.update fingerprint fun alert => { alert with acknowledged := true }

def resolve (service : AlertService) (fingerprint : String) : AlertService :=
  service.update fingerprint fun alert => { alert with resolved := true }

def apply (service : AlertService) : Call → AlertService
  | .emit emission => service.emit sha256 emission
  | .acknowledge fingerprint => service.acknowledge fingerprint
  | .resolve fingerprint => service.resolve fingerprint

/-- A new service after the calls, in order. -/
def run (calls : List Call) : AlertService := calls.foldl (apply sha256) ⟨.empty⟩

/-! ### Incidents -/

/-- The emissions of a fingerprint among some calls. -/
def emissionsOf (fingerprint : String) (calls : List Call) : List Emission :=
  calls.filterMap fun
    | .emit emission => if fingerprintOf sha256 emission = fingerprint then some emission else none
    | _ => none

/-- No incident is open after the calls: a resolution follows every emission. -/
def NoneOpen (fingerprint : String) (calls : List Call) : Prop :=
  ∀ before emission after, calls = before ++ .emit emission :: after →
    fingerprintOf sha256 emission = fingerprint → .resolve fingerprint ∈ after

/-- The calls after the one that opened an incident do not open another: no emission follows a
resolution. -/
def StaysOpen (fingerprint : String) (calls : List Call) : Prop :=
  ∀ between rest, calls = between ++ .resolve fingerprint :: rest →
    emissionsOf sha256 fingerprint rest = []

/-- What an incident, its opening emission and the calls after it, leaves in the alert. -/
def alertOf (fingerprint : String) (opening : Emission) (calls : List Call) : Alert :=
  let emissions := emissionsOf sha256 fingerprint calls
  { fingerprint := fingerprint
    provider := opening.provider
    rule := opening.rule
    severity := (emissions.map (·.severity)).foldl max opening.severity
    firstSeen := opening.now
    lastSeen := (emissions.getLast?.getD opening).now
    occurrences := emissions.length + 1
    acknowledged := decide (.acknowledge fingerprint ∈ calls)
    resolved := decide (.resolve fingerprint ∈ calls) }

variable {sha256} {service : AlertService} {fingerprint : String} {calls after : List Call}
  {emission opening : Emission} {call : Call}

theorem emissionsOf_append (before after : List Call) :
    emissionsOf sha256 fingerprint (before ++ after) =
      emissionsOf sha256 fingerprint before ++ emissionsOf sha256 fingerprint after :=
  List.filterMap_append

theorem emissionsOf_emit_cons (h : fingerprintOf sha256 emission = fingerprint) :
    emissionsOf sha256 fingerprint (.emit emission :: calls) =
      emission :: emissionsOf sha256 fingerprint calls := by
  rw [emissionsOf, List.filterMap_cons]
  simp only [if_pos h]
  rfl

theorem emissionsOf_ne_nil (h : fingerprintOf sha256 emission = fingerprint)
    (hmem : .emit emission ∈ calls) : emissionsOf sha256 fingerprint calls ≠ [] := by
  obtain ⟨before, after, rfl⟩ := List.append_of_mem hmem
  rw [emissionsOf_append, emissionsOf_emit_cons h]
  exact List.append_ne_nil_of_right_ne_nil _ (List.cons_ne_nil _ _)

theorem run_concat (calls : List Call) (call : Call) :
    run sha256 (calls ++ [call]) = (run sha256 calls).apply sha256 call := by
  rw [run, run, List.foldl_append, List.foldl_cons, List.foldl_nil]

/-! ### What one call does to the alert of a fingerprint -/

theorem get?_update (key : String) (change : Alert → Alert) :
    (service.update key change).alerts.get? fingerprint =
      if fingerprint = key then (service.alerts.get? fingerprint).map change
      else service.alerts.get? fingerprint := by
  rw [update]
  split
  · rename_i alert halert
    rw [InsertionDict.get?_set]
    split_ifs with hkey
    · rw [hkey, halert, Option.map_some]
    · rfl
  · rename_i halert
    split_ifs with hkey
    · rw [hkey, halert, Option.map_none]
    · rfl

theorem get?_emit_of_ne (h : fingerprintOf sha256 emission ≠ fingerprint) :
    (service.emit sha256 emission).alerts.get? fingerprint = service.alerts.get? fingerprint := by
  rw [emit]
  split
  · split_ifs <;> rw [InsertionDict.get?_set, if_neg (Ne.symm h)]
  · rw [InsertionDict.get?_set, if_neg (Ne.symm h)]

/-- An emission opens an alert where none is open. -/
theorem get?_emit_opened (hkey : fingerprintOf sha256 emission = fingerprint)
    (h : ∀ alert, service.alerts.get? fingerprint = some alert → alert.resolved = true) :
    (service.emit sha256 emission).alerts.get? fingerprint = some (opened sha256 emission) := by
  subst hkey
  rw [emit]
  split
  · rename_i alert halert
    rw [h alert halert, Bool.not_true, if_neg Bool.false_ne_true, InsertionDict.get?_set, if_pos rfl]
  · rw [InsertionDict.get?_set, if_pos rfl]

theorem get?_emit_seenAgain {alert : Alert} (hkey : fingerprintOf sha256 emission = fingerprint)
    (h : service.alerts.get? fingerprint = some alert) (hopen : alert.resolved = false) :
    (service.emit sha256 emission).alerts.get? fingerprint = some (seenAgain alert emission) := by
  subst hkey
  rw [emit, h]
  simp only [hopen, Bool.not_false, if_true]
  rw [InsertionDict.get?_set, if_pos rfl]

/-! ### One more call of an incident -/

theorem alertOf_emit (hkey : fingerprintOf sha256 emission = fingerprint) :
    alertOf sha256 fingerprint opening (after ++ [.emit emission]) =
      seenAgain (alertOf sha256 fingerprint opening after) emission := by
  have hemissions : emissionsOf sha256 fingerprint (after ++ [.emit emission]) =
      emissionsOf sha256 fingerprint after ++ [emission] := by
    rw [emissionsOf_append, emissionsOf_emit_cons hkey]
    rfl
  simp only [alertOf, seenAgain, hemissions, List.map_append, List.map_cons, List.map_nil,
    List.foldl_append, List.foldl_cons, List.foldl_nil, List.getLast?_concat, Option.getD_some,
    List.length_append, List.length_singleton, List.mem_append, List.mem_singleton, reduceCtorEq,
    or_false]

/-- Other calls leave the emissions as they were. -/
theorem alertOf_other (hnone : emissionsOf sha256 fingerprint [call] = []) :
    alertOf sha256 fingerprint opening (after ++ [call]) =
      { alertOf sha256 fingerprint opening after with
        acknowledged := (alertOf sha256 fingerprint opening after).acknowledged ||
          decide (call = .acknowledge fingerprint)
        resolved := (alertOf sha256 fingerprint opening after).resolved ||
          decide (call = .resolve fingerprint) } := by
  simp only [alertOf, emissionsOf_append, hnone, List.append_nil, List.mem_append,
    List.mem_singleton, Bool.decide_or, eq_comm]

theorem staysOpen_concat (h : StaysOpen sha256 fingerprint after)
    (hcall : emissionsOf sha256 fingerprint [call] = [] ∨ .resolve fingerprint ∉ after) :
    StaysOpen sha256 fingerprint (after ++ [call]) := by
  intro between rest heq
  rcases List.eq_nil_or_concat rest with rfl | ⟨rest, last, rfl⟩
  · rfl
  · have hsplit : after ++ [call] = (between ++ .resolve fingerprint :: rest) ++ [last] := by
      rw [heq, List.append_assoc, List.cons_append, List.concat_eq_append]
    obtain ⟨hafter, hlast⟩ := List.append_inj' hsplit rfl
    rcases hcall with hnone | hunresolved
    · rw [List.concat_eq_append, emissionsOf_append, h between rest hafter,
        ← List.singleton_inj.mp hlast, hnone]
      rfl
    · exact absurd (hafter ▸ List.mem_append_right _ List.mem_cons_self) hunresolved

/-- A resolution that no emission follows closes the incident, and with it all earlier ones. -/
theorem noneOpen_of_resolved {before : List Call} (h : StaysOpen sha256 fingerprint after)
    (hresolved : .resolve fingerprint ∈ after) :
    NoneOpen sha256 fingerprint (before ++ .emit opening :: after) := by
  intro front emission back heq hkey
  rcases List.append_eq_append_iff.mp heq with ⟨gap, rfl, hgap⟩ | ⟨gap, rfl, hgap⟩
  · -- the emission is the opening one or comes after it
    cases gap with
    | nil =>
        obtain ⟨-, rfl⟩ := List.cons.inj hgap
        exact hresolved
    | cons first gap =>
        obtain ⟨-, rfl⟩ := List.cons.inj hgap
        by_contra hback
        have hgap : .resolve fingerprint ∈ gap := by
          rcases List.mem_append.mp hresolved with hmem | hmem
          · exact hmem
          · rcases List.mem_cons.mp hmem with hemit | hmem
            · cases hemit
            · exact absurd hmem hback
        obtain ⟨between, rest, rfl⟩ := List.append_of_mem hgap
        have hnone := h between (rest ++ .emit emission :: back) (by simp)
        exact emissionsOf_ne_nil hkey (List.mem_append_right _ List.mem_cons_self) hnone
  · -- the emission comes before the opening one
    cases gap with
    | nil =>
        obtain ⟨-, rfl⟩ := List.cons.inj hgap
        exact hresolved
    | cons first gap =>
        obtain ⟨-, rfl⟩ := List.cons.inj hgap
        exact List.mem_append_right _ (List.mem_cons_of_mem _ hresolved)

/-- What a call other than an emission of the fingerprint does to its alert. -/
theorem get?_apply_other (hnone : emissionsOf sha256 fingerprint [call] = []) :
    (service.apply sha256 call).alerts.get? fingerprint =
      (service.alerts.get? fingerprint).map fun alert =>
        { alert with
          acknowledged := alert.acknowledged || decide (call = .acknowledge fingerprint)
          resolved := alert.resolved || decide (call = .resolve fingerprint) } := by
  cases call with
  | emit emission =>
      have hkey : fingerprintOf sha256 emission ≠ fingerprint := by
        intro hkey
        rw [emissionsOf_emit_cons hkey] at hnone
        cases hnone
      rw [apply, get?_emit_of_ne hkey]
      cases service.alerts.get? fingerprint <;> simp
  | acknowledge key =>
      rw [apply, acknowledge, get?_update]
      by_cases hkey : fingerprint = key
      · rw [if_pos hkey]
        cases service.alerts.get? fingerprint <;> simp [hkey]
      · rw [if_neg hkey]
        cases service.alerts.get? fingerprint <;> simp [Ne.symm hkey]
  | resolve key =>
      rw [apply, resolve, get?_update]
      by_cases hkey : fingerprint = key
      · rw [if_pos hkey]
        cases service.alerts.get? fingerprint <;> simp [hkey]
      · rw [if_neg hkey]
        cases service.alerts.get? fingerprint <;> simp [Ne.symm hkey]

/-- After any calls, a fingerprint that was never emitted has no alert, and the alert of any other
tells its last incident: the emission that opened it, which no open incident preceded, and what the
calls since then did. -/
theorem alert_of_run (sha256 : String → String) (calls : List Call) (fingerprint : String) :
    (emissionsOf sha256 fingerprint calls = [] ∧
        (run sha256 calls).alerts.get? fingerprint = none) ∨
      ∃ before opening after, calls = before ++ .emit opening :: after ∧
        fingerprintOf sha256 opening = fingerprint ∧ NoneOpen sha256 fingerprint before ∧
        StaysOpen sha256 fingerprint after ∧
        (run sha256 calls).alerts.get? fingerprint =
          some (alertOf sha256 fingerprint opening after) := by
  induction calls using List.reverseRecOn with
  | nil => exact .inl ⟨rfl, rfl⟩
  | append_singleton calls call ih =>
      rw [run_concat]
      by_cases hcall : emissionsOf sha256 fingerprint [call] = []
      · -- the emissions stay as they were
        rw [get?_apply_other hcall, emissionsOf_append, hcall, List.append_nil]
        rcases ih with ⟨hnone, hget⟩ | ⟨before, opening, after, rfl, hkey, hclosed, hopen, hget⟩
        · exact .inl ⟨hnone, by rw [hget, Option.map_none]⟩
        · refine .inr ⟨before, opening, after ++ [call], by simp, hkey, hclosed,
            staysOpen_concat hopen (.inl hcall), ?_⟩
          rw [hget, Option.map_some, alertOf_other hcall]
      · obtain ⟨emission, rfl, hkey⟩ : ∃ emission, call = .emit emission ∧
            fingerprintOf sha256 emission = fingerprint := by
          cases call with
          | emit emission =>
              refine ⟨emission, rfl, by_contra fun hne => hcall ?_⟩
              rw [emissionsOf, List.filterMap_cons]
              simp only [if_neg hne]
              rfl
          | acknowledge key => exact absurd rfl hcall
          | resolve key => exact absurd rfl hcall
        have hfresh : alertOf sha256 fingerprint emission [] = opened sha256 emission := by
          rw [alertOf, opened, hkey]
          rfl
        have hnothing : StaysOpen sha256 fingerprint ([] : List Call) :=
          fun between rest heq => absurd heq.symm (by simp)
        right
        rcases ih with ⟨hnone, hget⟩ | ⟨before, opening, after, rfl, hopening, hclosed, hopen, hget⟩
        · refine ⟨calls, emission, [], rfl, hkey, ?_, hnothing, ?_⟩
          · intro front earlier back heq hearlier
            exact absurd hnone
              (emissionsOf_ne_nil hearlier (heq ▸ List.mem_append_right _ List.mem_cons_self))
          · rw [apply, get?_emit_opened hkey (by rw [hget]; exact fun _ h => nomatch h), hfresh]
        · by_cases hresolved : .resolve fingerprint ∈ after
          · refine ⟨before ++ .emit opening :: after, emission, [], rfl, hkey,
              noneOpen_of_resolved hopen hresolved, hnothing, ?_⟩
            rw [apply, get?_emit_opened hkey, hfresh]
            intro alert halert
            obtain rfl := Option.some.inj (hget.symm.trans halert)
            exact decide_eq_true hresolved
          · refine ⟨before, opening, after ++ [.emit emission], by simp, hopening, hclosed,
              staysOpen_concat hopen (.inr hresolved), ?_⟩
            rw [apply, get?_emit_seenAgain hkey hget (decide_eq_false hresolved),
              alertOf_emit hkey]

end AlertService

inductive ProviderJobStatus where
  | planned
  | requesting
  | throttled
  | importing
  | certifying
  | completed
  | failed
  | cancelled
  deriving DecidableEq, Repr

structure ProviderRequestRecord (P : Type) where
  provider : String
  requestId : String
  dataset : String
  requestChecksum : String
  parameters : P
  createdAt : DateTime

structure ProviderCheckpoint where
  provider : String
  jobId : String
  checkpointId : String
  ordinal : Int
  continuation : Option String
  responseChecksum : String
  completed : Bool

/-- The events carry the texts of their times. -/
structure ProviderJob where
  provider : String
  jobId : String
  requestChecksum : String
  status : ProviderJobStatus := .planned
  events : List (ProviderJobStatus × String) := []
  cancelled : Bool := false

/-- `job.transition(status)`, at a time. -/
def ProviderJob.transition (job : ProviderJob) (status : ProviderJobStatus) (now : String) :
    ProviderJob :=
  { job with status := status, events := job.events ++ [(status, now)] }

/-- What `create_job` reads of its parameters, and the digest it takes. -/
structure JobText (P : Type) where
  canonical : P → String
  dataset : P → String
  sha256 : String → String

structure ProviderOperationsService (P : Type) where
  jobs : InsertionDict String ProviderJob
  requests : InsertionDict (String × String) (ProviderRequestRecord P)
  checkpoints : InsertionDict (String × String) ProviderCheckpoint

namespace ProviderOperationsService

variable {P : Type} (text : JobText P) (service : ProviderOperationsService P)

/-- `dict.setdefault(key, value)`. -/
def setdefault {κ β : Type} [DecidableEq κ] (dict : InsertionDict κ β) (key : κ) (value : β) :
    InsertionDict κ β :=
  if dict.contains key then dict else dict.set key value

def jobIdOf (provider : String) (parameters : P) : String :=
  s!"{provider}-{String.ofList ((text.sha256 (text.canonical parameters)).toList.take 16)}"

def createJob (provider : String) (parameters : P) (now : DateTime) :
    ProviderOperationsService P :=
  let checksum := text.sha256 (text.canonical parameters)
  let jobId := jobIdOf text provider parameters
  { service with
    jobs := setdefault service.jobs jobId
      { provider := provider, jobId := jobId, requestChecksum := checksum }
    requests := setdefault service.requests (provider, jobId)
      ⟨provider, jobId, text.dataset parameters, checksum, parameters, now⟩ }

/-- Where a checkpoint is kept. -/
def keyOf (value : ProviderCheckpoint) : String × String := (value.jobId, value.checkpointId)

/-- `self.checkpoints[key] = value`. -/
def keep (value : ProviderCheckpoint) : ProviderOperationsService P :=
  { service with checkpoints := service.checkpoints.set (keyOf value) value }

def checkpoint (value : ProviderCheckpoint) : Except Exc (ProviderOperationsService P) :=
  match service.checkpoints.get? (keyOf value) with
  | some existing =>
      if existing.responseChecksum ≠ value.responseChecksum then
        .error ⟨.valueError, "Checkpoint response changed; create a new dataset version"⟩
      else .ok (service.keep value)
  | none => .ok (service.keep value)

/-- `self.jobs[job_id]`. -/
def job (jobId : String) : Except Exc ProviderJob :=
  match service.jobs.get? jobId with
  | some job => .ok job
  | none => .error ⟨.other "KeyError", jobId⟩

/-- The job as its holder has changed it. -/
def store (jobId : String) (job : ProviderJob) : ProviderOperationsService P :=
  { service with jobs := service.jobs.set jobId job }

def cancel (jobId now : String) : Except Exc (ProviderOperationsService P) := do
  let job ← service.job jobId
  return service.store jobId ({ job with cancelled := true }.transition .cancelled now)

def resume (jobId now : String) : Except Exc (ProviderOperationsService P) := do
  let job ← service.job jobId
  if job.status ≠ .cancelled ∧ job.status ≠ .failed then
    .error ⟨.valueError, "Only cancelled or failed jobs can be resumed"⟩
  else return service.store jobId ({ job with cancelled := false }.transition .planned now)

/-- The holder of a job moves it on. -/
def transition (jobId : String) (status : ProviderJobStatus) (now : String) :
    Except Exc (ProviderOperationsService P) := do
  let job ← service.job jobId
  return service.store jobId (job.transition status now)

inductive Call (P : Type) where
  | createJob (provider : String) (parameters : P) (now : DateTime)
  | checkpoint (value : ProviderCheckpoint)
  | cancel (jobId now : String)
  | resume (jobId now : String)
  | transition (jobId : String) (status : ProviderJobStatus) (now : String)

def call : Call P → Except Exc (ProviderOperationsService P)
  | .createJob provider parameters now => .ok (service.createJob text provider parameters now)
  | .checkpoint value => service.checkpoint value
  | .cancel jobId now => service.cancel jobId now
  | .resume jobId now => service.resume jobId now
  | .transition jobId status now => service.transition jobId status now

/-- The service after a call; one that raises has written nothing. -/
def apply (next : Call P) : ProviderOperationsService P :=
  match service.call text next with
  | .ok service' => service'
  | .error _ => service

def new : ProviderOperationsService P := ⟨.empty, .empty, .empty⟩

/-- The service after the calls, in order. -/
def run (calls : List (Call P)) : ProviderOperationsService P := calls.foldl (apply text) service

/-! ### What is never taken back -/

/-- The later job is the earlier one with more events. -/
structure ProviderJobContinues (job later : ProviderJob) : Prop where
  provider : later.provider = job.provider
  jobId : later.jobId = job.jobId
  requestChecksum : later.requestChecksum = job.requestChecksum
  events : job.events <+: later.events

/-- Nothing the earlier service has recorded is missing or rewritten in the later one. -/
structure Continues (service later : ProviderOperationsService P) : Prop where
  jobs : ∀ jobId job, service.jobs.get? jobId = some job →
    ∃ job', later.jobs.get? jobId = some job' ∧ ProviderJobContinues job job'
  requests : ∀ key request, service.requests.get? key = some request →
    later.requests.get? key = some request
  checkpoints : ∀ key checkpoint, service.checkpoints.get? key = some checkpoint →
    ∃ checkpoint', later.checkpoints.get? key = some checkpoint' ∧
      checkpoint'.responseChecksum = checkpoint.responseChecksum

/-- Every job stands where its last event put it, under its own id. -/
def Consistent (service : ProviderOperationsService P) : Prop :=
  ∀ jobId job, service.jobs.get? jobId = some job → job.jobId = jobId ∧
    job.status = (job.events.getLast?.map Prod.fst).getD .planned

variable {text service} {later last : ProviderOperationsService P} {next : Call P}

theorem ProviderJobContinues.refl (job : ProviderJob) : ProviderJobContinues job job :=
  ⟨rfl, rfl, rfl, List.prefix_rfl⟩

theorem ProviderJobContinues.trans {a b c : ProviderJob} (hab : ProviderJobContinues a b)
    (hbc : ProviderJobContinues b c) : ProviderJobContinues a c :=
  ⟨hbc.provider.trans hab.provider, hbc.jobId.trans hab.jobId,
    hbc.requestChecksum.trans hab.requestChecksum, hab.events.trans hbc.events⟩

theorem Continues.refl (service : ProviderOperationsService P) : Continues service service :=
  ⟨fun _ job h => ⟨job, h, .refl job⟩, fun _ _ h => h, fun _ checkpoint h => ⟨checkpoint, h, rfl⟩⟩

theorem Continues.trans (h : Continues service later) (h' : Continues later last) :
    Continues service last := by
  refine ⟨?_, fun key request hget => h'.requests key request (h.requests key request hget), ?_⟩
  · intro jobId job hget
    obtain ⟨job', hget', hjob⟩ := h.jobs jobId job hget
    obtain ⟨job'', hget'', hjob'⟩ := h'.jobs jobId job' hget'
    exact ⟨job'', hget'', hjob.trans hjob'⟩
  · intro key checkpoint hget
    obtain ⟨checkpoint', hget', hsame⟩ := h.checkpoints key checkpoint hget
    obtain ⟨checkpoint'', hget'', hsame'⟩ := h'.checkpoints key checkpoint' hget'
    exact ⟨checkpoint'', hget'', hsame'.trans hsame⟩

theorem get?_setdefault {κ β : Type} [DecidableEq κ] {dict : InsertionDict κ β} {key other : κ}
    {value found : β} (h : dict.get? other = some found) :
    (setdefault dict key value).get? other = some found := by
  rw [setdefault]
  split_ifs with hcontains
  · exact h
  · rw [InsertionDict.get?_set, if_neg, h]
    rintro rfl
    rw [InsertionDict.contains, h] at hcontains
    exact hcontains rfl

/-- What `setdefault` holds is what was there, or the default. -/
theorem get?_setdefault_cases {κ β : Type} [DecidableEq κ] {dict : InsertionDict κ β}
    {key other : κ} {value found : β} (h : (setdefault dict key value).get? other = some found) :
    dict.get? other = some found ∨ other = key ∧ found = value := by
  rw [setdefault] at h
  split_ifs at h with hcontains
  · exact .inl h
  · rw [InsertionDict.get?_set] at h
    split_ifs at h with hkey
    · exact .inr ⟨hkey, (Option.some.inj h).symm⟩
    · exact .inl h

theorem job_eq_ok {jobId : String} {job : ProviderJob} (h : service.job jobId = .ok job) :
    service.jobs.get? jobId = some job := by
  rw [ProviderOperationsService.job] at h
  split at h
  · rename_i found hfound
    rw [hfound, Except.ok.inj h]
  · cases h

/-- A call that writes a job moves one that is there on by one event. -/
theorem call_cases {service' : ProviderOperationsService P}
    (h : service.call text next = .ok service') :
    (∃ provider parameters now, service' = service.createJob text provider parameters now) ∨
      (∃ value, service' = service.keep value ∧
        ∀ existing, service.checkpoints.get? (keyOf value) = some existing →
          existing.responseChecksum = value.responseChecksum) ∨
      ∃ jobId job cancelled status now, service.jobs.get? jobId = some job ∧
        service' = service.store jobId ({ job with cancelled := cancelled }.transition status now) := by
  cases next with
  | createJob provider parameters now =>
      exact .inl ⟨provider, parameters, now, (Except.ok.inj h).symm⟩
  | checkpoint value =>
      rw [call, checkpoint] at h
      refine .inr (.inl ⟨value, ?_⟩)
      split at h
      · rename_i existing hexisting
        split_ifs at h with hchanged
        refine ⟨(Except.ok.inj h).symm, fun other hother => ?_⟩
        obtain rfl := Option.some.inj (hexisting.symm.trans hother)
        exact not_not.mp hchanged
      · rename_i hnone
        refine ⟨(Except.ok.inj h).symm, fun other hother => ?_⟩
        rw [hnone] at hother
        cases hother
  | cancel jobId now =>
      obtain ⟨job, hjob, h⟩ := except_bind_eq_ok.mp h
      exact .inr (.inr ⟨jobId, job, true, .cancelled, now, job_eq_ok hjob,
        (Except.ok.inj h).symm⟩)
  | resume jobId now =>
      obtain ⟨job, hjob, h⟩ := except_bind_eq_ok.mp h
      split_ifs at h
      exact .inr (.inr ⟨jobId, job, false, .planned, now, job_eq_ok hjob, (Except.ok.inj h).symm⟩)
  | transition jobId status now =>
      obtain ⟨job, hjob, h⟩ := except_bind_eq_ok.mp h
      exact .inr (.inr ⟨jobId, job, job.cancelled, status, now, job_eq_ok hjob,
        (Except.ok.inj h).symm⟩)

theorem continues_call {service' : ProviderOperationsService P}
    (h : service.call text next = .ok service') : Continues service service' := by
  rcases call_cases h with ⟨provider, parameters, now, rfl⟩ | ⟨value, rfl, hsame⟩ |
    ⟨jobId, job, cancelled, status, now, hjob, rfl⟩
  · exact ⟨fun _ job hget => ⟨job, get?_setdefault hget, .refl job⟩,
      fun _ _ hget => get?_setdefault hget, fun _ checkpoint hget => ⟨checkpoint, hget, rfl⟩⟩
  · refine ⟨fun _ job hget => ⟨job, hget, .refl job⟩, fun _ _ hget => hget, ?_⟩
    intro key existing hget
    simp only [keep, InsertionDict.get?_set]
    split_ifs with hkey
    · subst hkey
      exact ⟨value, rfl, (hsame existing hget).symm⟩
    · exact ⟨existing, hget, rfl⟩
  · refine ⟨?_, fun _ _ hget => hget, fun _ checkpoint hget => ⟨checkpoint, hget, rfl⟩⟩
    intro other found hget
    simp only [store, InsertionDict.get?_set]
    split_ifs with hkey
    · subst hkey
      obtain rfl := Option.some.inj (hjob.symm.trans hget)
      exact ⟨_, rfl, ⟨rfl, rfl, rfl, List.prefix_append _ _⟩⟩
    · exact ⟨found, hget, .refl found⟩

theorem consistent_call {service' : ProviderOperationsService P} (hconsistent : Consistent service)
    (h : service.call text next = .ok service') : Consistent service' := by
  rcases call_cases h with ⟨provider, parameters, now, rfl⟩ | ⟨value, rfl, -⟩ |
    ⟨jobId, job, cancelled, status, now, hjob, rfl⟩
  · intro other found hget
    rcases get?_setdefault_cases hget with hbefore | ⟨rfl, rfl⟩
    · exact hconsistent other found hbefore
    · exact ⟨rfl, rfl⟩
  · exact hconsistent
  · intro other found hget
    simp only [store, InsertionDict.get?_set] at hget
    split_ifs at hget with hkey
    · subst hkey
      obtain rfl := Option.some.inj hget
      refine ⟨(hconsistent other job hjob).1, ?_⟩
      simp only [ProviderJob.transition, List.getLast?_concat, Option.map_some, Option.getD_some]
    · exact hconsistent other found hget

theorem apply_keeps (text : JobText P) (next : Call P)
    {motive : ProviderOperationsService P → Prop} (hservice : motive service)
    (hcall : ∀ service', service.call text next = .ok service' → motive service') :
    motive (service.apply text next) := by
  rw [apply]
  split
  · rename_i service' hok
    exact hcall service' hok
  · exact hservice

end ProviderOperationsService

end OptionResearch
