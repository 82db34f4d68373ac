import OptionResearch.CutPrograms
import OptionResearch.PythonValues

/-!
# Files of an installed release

`release/operations.py`: the rotation of a log and the restore of a database backup, as programs on
files that may be cut off between any two of their steps. A file that is copied holds anything until
the copy is done, and one that is appended to keeps what it had.

However often a log is rotated, cut off and rotated again, what its files keep is one stretch of
what was written, up to the end.
-/

namespace OptionResearch

open CutProgram

structure FilePath where
  parent : String
  name : String
  deriving DecidableEq, Repr

def FilePath.withName (path : FilePath) (name : String) : FilePath := { path with name }

abbrev Bytes := List UInt8

/-- The regular files; a path that does not exist is `none`. -/
abbrev Files := FileStore FilePath Bytes

abbrev FileProgram (α : Type) := CutProgram Files Exc α

/-- What a file holds, nothing where it is missing. -/
def Files.content (files : Files) (path : FilePath) : Bytes := (files path).getD []

namespace Files

variable {files t : Files} {path other : FilePath} {c : Option Bytes}

theorem content_congr (h : t path = files path) : content t path = content files path := by
  rw [content, content, h]

@[simp] theorem content_set_self : content (files.set path c) path = c.getD [] := by
  rw [content, FileStore.set_self]

theorem content_set_of_ne (h : other ≠ path) :
    content (files.set path c) other = content files other := by
  rw [content, content, FileStore.set_of_ne h]

end Files

namespace FilePath

def readBytes (path : FilePath) : FileProgram Bytes := do
  let files ← read
  match files path with
  | some content => return content
  | none => raise ⟨.other "FileNotFoundError", "No such file or directory: " ++ path.name⟩

/-- `path.unlink()`. -/
def unlink (path : FilePath) : FileProgram Unit := do
  let _ ← path.readBytes
  write fun files => files.set path none

/-- `source.replace(target)`. -/
def replace (source target : FilePath) : FileProgram Unit := do
  let content ← source.readBytes
  write fun files => (files.set source none).set target (some content)

/-- `shutil.copy2(source, target)`. -/
def copy (source target : FilePath) : FileProgram Unit := do
  if source = target then
    raise ⟨.other "SameFileError", source.name ++ " and " ++ target.name ++ " are the same file"⟩
  else
    let content ← source.readBytes
    change (fun files t => ∃ part, t = files.set target (some part))
      fun files => files.set target (some content)

/-- A line at the end of the file, opened with `"a"`. -/
def appendLine (path : FilePath) (line : Bytes) : FileProgram Unit :=
  change (fun files t => ∃ part, t = files.set path (some (files.content path ++ part)))
    fun files => files.set path (some (files.content path ++ line))

/-- `path.write_text("")`. -/
def writeEmpty (path : FilePath) : FileProgram Unit := write fun files => files.set path (some [])

end FilePath

section

variable {path target : FilePath} {files : Files} {content : Bytes} {P : Files → Prop}

theorem meets_readBytes (h : files path = some content) (hp : P files) :
    Meets path.readBytes files (Returning fun read t => read = content ∧ t = files) P := by
  apply meets_read_bind
  rw [h]
  exact meets_pure ⟨content, rfl, rfl, rfl⟩ hp

theorem meets_readBytes_of_missing (h : files path = none) (hp : P files) :
    Meets path.readBytes files (fun outcome t => t = files ∧ ∃ e, outcome = .error e) P := by
  apply meets_read_bind
  rw [h]
  exact meets_raise ⟨rfl, _, rfl⟩ hp

theorem meets_unlink (h : files path = some content) (hp : P files)
    (hpath : P (files.set path none)) :
    Meets path.unlink files (Returning fun _ t => t = files.set path none) P := by
  apply (meets_readBytes h hp).bind_of_returning
  intro _ t ht
  obtain ⟨-, rfl⟩ := ht
  exact meets_write ⟨(), rfl, rfl⟩ hp hpath

theorem meets_replace (h : files path = some content) (hp : P files)
    (htarget : P ((files.set path none).set target (some content))) :
    Meets (path.replace target) files
      (Returning fun _ t => t = (files.set path none).set target (some content)) P := by
  apply (meets_readBytes h hp).bind_of_returning
  intro read t ht
  obtain ⟨rfl, rfl⟩ := ht
  exact meets_write ⟨(), rfl, rfl⟩ hp htarget

theorem meets_copy (h : files path = some content) (hne : path ≠ target) (hp : P files)
    (htarget : ∀ part, P (files.set target (some part))) :
    Meets (path.copy target) files
      (Returning fun _ t => t = files.set target (some content)) P := by
  rw [FilePath.copy, if_neg hne]
  apply (meets_readBytes h hp).bind_of_returning
  intro read t ht
  obtain ⟨rfl, rfl⟩ := ht
  refine meets_change ⟨(), rfl, rfl⟩ hp (fun t ht => ?_) (htarget _)
  obtain ⟨part, rfl⟩ := ht
  exact htarget part

end

/-! ### Rotation of a log -/

/-- `log.with_name(f"{log.name}.{index}")`. -/
def indexed (log : FilePath) (index : ℕ) : FilePath := log.withName s!"{log.name}.{index}"

/-- `range(n, 0, -1)`. -/
def countdown : ℕ → List ℕ
  | 0 => []
  | n + 1 => (n + 1) :: countdown n

/-- A pass of the loop over the kept logs. -/
def rotatePass (log : FilePath) (retentionCount : ℤ) (rotated : List FilePath) (index : ℕ) :
    FileProgram (List FilePath) := do
  let source := indexed log index
  let target := indexed log (index + 1)
  let files ← read
  if (files source).isSome then
    if (index : ℤ) = retentionCount then
      source.unlink
      return rotated
    else
      source.replace target
      return rotated ++ [target]
  else return rotated

def rotateLog (log : FilePath) (maximumBytes retentionCount : ℤ) :
    FileProgram (List FilePath) := do
  let files ← read
  match files log with
  | none => return []
  | some content =>
    if (content.length : ℤ) ≤ maximumBytes then return []
    else
      let rotated ← (countdown retentionCount.toNat).foldlM (rotatePass log retentionCount) []
      let first := indexed log 1
      log.replace first
      log.writeEmpty
      return rotated ++ [first]

namespace LogRotation

open Files

/-- The log and the logs that it was, by age. -/
def slot (log : FilePath) : ℕ → FilePath
  | 0 => log
  | index + 1 => indexed log (index + 1)

variable {log : FilePath} {files files' t : Files} {m k top : ℕ}

theorem indexed_injective {i j : ℕ} (h : indexed log i = indexed log j) : i = j := by
  have hname : log.name ++ "." ++ toString i = log.name ++ "." ++ toString j :=
    congrArg FilePath.name h
  have htext := (String.append_right_inj _).mp hname
  apply Date.digits_injective 0
  rw [Date.digits, Date.digits, htext]

theorem indexed_ne_log {i : ℕ} : indexed log i ≠ log := by
  intro h
  have hname : log.name ++ "." ++ toString i = log.name := congrArg FilePath.name h
  have hlength := congrArg (fun name => name.toList.length) hname
  simp at hlength

theorem slot_injective {i j : ℕ} (h : slot log i = slot log j) : i = j := by
  cases i with
  | zero =>
    cases j with
    | zero => rfl
    | succ j => exact absurd h.symm indexed_ne_log
  | succ i =>
    cases j with
    | zero => exact absurd h indexed_ne_log
    | succ j => exact indexed_injective h

/-- What the logs of the first `k` slots hold, the oldest first. -/
def kept (log : FilePath) (files : Files) : ℕ → Bytes
  | 0 => []
  | k + 1 => content files (slot log k) ++ kept log files k

theorem kept_congr (h : ∀ i < k, content t (slot log i) = content files (slot log i)) :
    kept log t k = kept log files k := by
  induction k with
  | zero => rfl
  | succ k ih =>
    rw [kept, kept, h k (by omega), ih fun i hi => h i (by omega)]

theorem kept_suffix_kept {j : ℕ} (h : j ≤ k) : kept log files j <:+ kept log files k := by
  induction k with
  | zero =>
    obtain rfl : j = 0 := by omega
    exact List.suffix_rfl
  | succ k ih =>
    by_cases hj : j = k + 1
    · subst hj
      exact List.suffix_rfl
    · exact (ih (by omega)).trans (List.suffix_append _ _)

/-- The logs from slot `m` on have moved one slot up. -/
structure Moved (log : FilePath) (top m : ℕ) (files t : Files) : Prop where
  below : ∀ i < m, t (slot log i) = files (slot log i)
  gap : content t (slot log m) = []
  above : ∀ i, m ≤ i → i < top → content t (slot log (i + 1)) = content files (slot log i)
  other : ∀ path, (∀ i ≤ top, path ≠ slot log i) → t path = files path

theorem Moved.kept_below (h : Moved log top m files t) (hk : k ≤ m) :
    kept log t k = kept log files k :=
  kept_congr fun i hi => by rw [content, content, h.below i (by omega)]

theorem Moved.kept_above (h : Moved log top m files t) (hm : m ≤ k) (hk : k ≤ top) :
    kept log t (k + 1) = kept log files k := by
  induction k with
  | zero =>
    obtain rfl : m = 0 := by omega
    have hgap := h.gap
    simp [kept, hgap]
  | succ k ih =>
    by_cases hgap : m = k + 1
    · subst hgap
      rw [kept, h.gap, h.kept_below le_rfl]
      rfl
    · rw [kept, h.above k (by omega) (by omega), ih (by omega) (by omega), kept]

theorem slot_ne {i j : ℕ} (h : i ≠ j) : slot log i ≠ slot log j := fun heq => h (slot_injective heq)

/-- The oldest log is removed. -/
theorem moved_of_unlink (files : Files) :
    Moved log top top files (files.set (slot log top) none) where
  below i hi := FileStore.set_of_ne (slot_ne (by omega))
  gap := content_set_self
  above i hm hi := by omega
  other path h := FileStore.set_of_ne (h top le_rfl)

/-- A log takes the place of the older one, which has moved before. -/
theorem moved_of_replace {c : Bytes} (hm : m < top)
    (hbelow : ∀ i ≤ m, t (slot log i) = files (slot log i))
    (habove : ∀ i, m < i → i < top → content t (slot log (i + 1)) = content files (slot log i))
    (hother : ∀ path, (∀ i ≤ top, path ≠ slot log i) → t path = files path)
    (hc : t (slot log m) = some c) :
    Moved log top m files ((t.set (slot log m) none).set (slot log (m + 1)) (some c)) where
  below i hi := by
    rw [FileStore.set_of_ne (slot_ne (by omega)), FileStore.set_of_ne (slot_ne (by omega)),
      hbelow i (by omega)]
  gap := by
    rw [content_set_of_ne (slot_ne (by omega)), content_set_self]
    rfl
  above i hi htop := by
    by_cases him : i = m
    · subst him
      rw [content_set_self, content, ← hbelow i le_rfl, hc]
    · rw [content_set_of_ne (slot_ne (by omega)), content_set_of_ne (slot_ne (by omega)),
        habove i (by omega) htop]
  other path h := by
    rw [FileStore.set_of_ne (h (m + 1) hm), FileStore.set_of_ne (h m hm.le), hother path h]

/-- A slot without a log is as good as one whose log has moved. -/
theorem Moved.of_missing (h : Moved log top (m + 1) files t) (hnone : t (slot log m) = none) :
    Moved log top m files t where
  below i hi := h.below i (by omega)
  gap := by simp [content, hnone]
  above i hm htop := by
    by_cases him : i = m
    · subst him
      rw [h.gap, content, ← h.below i (by omega), hnone]
      rfl
    · exact h.above i (by omega) htop
  other := h.other

theorem moved_of_missing (hnone : files (slot log top) = none) : Moved log top top files files where
  below _ _ := rfl
  gap := by simp [content, hnone]
  above i hm hi := by omega
  other _ _ := rfl

/-- How many slots a rotation uses beside the log. -/
def slots (retentionCount : ℤ) : ℕ := max 1 retentionCount.toNat

/-- Where a rotation is on its way: nothing is done, or the logs from some slot on have moved. -/
def OnTheWay (log : FilePath) (top : ℕ) (files t : Files) : Prop :=
  t = files ∨ ∃ m ≤ top, Moved log top m files t

/-- What is left of the loop, and the slots that have moved. -/
def Turned (log : FilePath) (retentionCount : ℤ) (files : Files) (rest : List ℕ) (t : Files) :
    Prop :=
  ∃ j, rest = countdown j ∧ (j = retentionCount.toNat ∧ t = files ∨
    j < retentionCount.toNat ∧ Moved log (slots retentionCount) (j + 1) files t)

theorem Turned.onTheWay {retentionCount : ℤ} {rest : List ℕ}
    (h : Turned log retentionCount files rest t) :
    OnTheWay log (slots retentionCount) files t := by
  obtain ⟨j, -, ⟨-, rfl⟩ | ⟨hj, hmoved⟩⟩ := h
  · exact .inl rfl
  · exact .inr ⟨j + 1, by rw [slots]; omega, hmoved⟩

/-- A pass moves the log of its index, if there is one. -/
theorem meets_rotatePass {retentionCount : ℤ} {index : ℕ} {rest : List ℕ}
    (rotated : List FilePath) (h : Turned log retentionCount files (index :: rest) t) :
    Meets (rotatePass log retentionCount rotated index) t
      (Returning fun _ t' => Turned log retentionCount files rest t')
      (OnTheWay log (slots retentionCount) files) := by
  have hway := h.onTheWay
  obtain ⟨j, hrest, hstage⟩ := h
  cases j with
  | zero => cases hrest
  | succ j =>
    obtain ⟨rfl, rfl⟩ := List.cons.inj hrest
    have hcount : slots retentionCount = retentionCount.toNat := by
      rw [slots]
      omega
    have hturned : ∀ t', Moved log (slots retentionCount) (j + 1) files t' →
        Turned log retentionCount files (countdown j) t' :=
      fun t' hmoved => ⟨j, rfl, .inr ⟨by omega, hmoved⟩⟩
    apply meets_read_bind
    cases hsource : t (slot log (j + 1)) with
    | none =>
      have hmissing : ¬ (t (indexed log (j + 1))).isSome = true := by
        change ¬ (t (slot log (j + 1))).isSome = true
        simp [hsource]
      rw [if_neg hmissing]
      refine meets_pure ⟨rotated, rfl, hturned t ?_⟩ hway
      rcases hstage with ⟨htop, rfl⟩ | ⟨hj, hmoved⟩
      · rw [hcount, ← htop]
        exact moved_of_missing hsource
      · exact hmoved.of_missing hsource
    | some c =>
      have hexists : (t (indexed log (j + 1))).isSome = true := by
        change (t (slot log (j + 1))).isSome = true
        simp [hsource]
      rw [if_pos hexists]
      by_cases hlast : ((j + 1 : ℕ) : ℤ) = retentionCount
      · rw [if_pos hlast]
        obtain ⟨htop, rfl⟩ | ⟨hj, -⟩ := hstage
        · have hmoved : Moved log (slots retentionCount) (j + 1) t
              (t.set (slot log (j + 1)) none) := by
            rw [hcount, ← htop]
            exact moved_of_unlink t
          have hnext := hturned _ hmoved
          apply (meets_unlink hsource hway hnext.onTheWay).bind_of_returning
          intro _ t' ht'
          subst ht'
          exact meets_pure ⟨rotated, rfl, hnext⟩ hnext.onTheWay
        · omega
      · rw [if_neg hlast]
        obtain ⟨htop, -⟩ | ⟨hj, hmoved⟩ := hstage
        · omega
        · have hnext := hturned _ (moved_of_replace (by omega)
            (fun i hi => hmoved.below i (by omega)) (fun i hi => hmoved.above i (by omega))
            hmoved.other hsource)
          apply (meets_replace hsource hway hnext.onTheWay).bind_of_returning
          intro _ t' ht'
          subst ht'
          exact meets_pure ⟨_, rfl, hnext⟩ hnext.onTheWay

/-- A rotation that is not cut off leaves the files, or moves every log one slot up and leaves an
empty one. -/
theorem meets_rotateLog (log : FilePath) (maximumBytes retentionCount : ℤ) (files : Files) :
    Meets (rotateLog log maximumBytes retentionCount) files
      (Returning fun _ t => t = files ∨
        t log = some [] ∧ Moved log (slots retentionCount) 0 files t)
      (OnTheWay log (slots retentionCount) files) := by
  have hsame : OnTheWay log (slots retentionCount) files files := .inl rfl
  apply meets_read_bind
  cases hlog : files log with
  | none => exact meets_pure ⟨[], rfl, .inl rfl⟩ hsame
  | some c =>
    by_cases hsmall : (c.length : ℤ) ≤ maximumBytes
    · simp only [if_pos hsmall]
      exact meets_pure ⟨[], rfl, .inl rfl⟩ hsame
    · simp only [if_neg hsmall]
      apply (meets_foldlM (Turned log retentionCount files)
        (fun i rest acc s h => meets_rotatePass acc h) (fun s h => h.onTheWay)
        (countdown retentionCount.toNat) [] files
        ⟨retentionCount.toNat, rfl, .inl ⟨rfl, rfl⟩⟩).bind_of_returning
      intro rotated t hturned
      have hway := hturned.onTheWay
      obtain ⟨j, hrest, hstage⟩ := hturned
      have hzero : j = 0 := by
        cases j with
        | zero => rfl
        | succ j => cases hrest
      subst hzero
      have hcurrent : t log = some c := by
        obtain ⟨-, rfl⟩ | ⟨-, hmoved⟩ := hstage
        · exact hlog
        · exact (hmoved.below 0 (by omega)).trans hlog
      have hmoved : Moved log (slots retentionCount) 0 files
          ((t.set log none).set (indexed log 1) (some c)) := by
        refine moved_of_replace (by rw [slots]; omega) (fun i hi => ?_) (fun i hi htop => ?_)
          (fun path hpath => ?_) hcurrent
        · obtain rfl : i = 0 := by omega
          exact hcurrent.trans hlog.symm
        · obtain ⟨hcount, -⟩ | ⟨-, hmoved⟩ := hstage
          · rw [slots] at htop
            omega
          · exact hmoved.above i (by omega) htop
        · obtain ⟨-, rfl⟩ | ⟨-, hmoved⟩ := hstage
          · rfl
          · exact hmoved.other path hpath
      have hnext : OnTheWay log (slots retentionCount) files
          ((t.set log none).set (indexed log 1) (some c)) := .inr ⟨0, by omega, hmoved⟩
      apply (meets_replace hcurrent hway hnext).bind_of_returning
      intro _ t' ht'
      subst ht'
      have hempty : Moved log (slots retentionCount) 0 files
          (((t.set log none).set (indexed log 1) (some c)).set log (some [])) := by
        refine ⟨fun i hi => ?_, content_set_self, fun i hm hi => ?_, fun path hpath => ?_⟩
        · omega
        · exact (content_set_of_ne indexed_ne_log).trans (hmoved.above i hm hi)
        · exact (FileStore.set_of_ne (hpath 0 (by omega))).trans (hmoved.other path hpath)
      apply (meets_write (Q := Returning fun _ t' => t' =
        ((t.set log none).set (indexed log 1) (some c)).set log (some [])) ⟨(), rfl, rfl⟩ hnext
          (.inr ⟨0, by omega, hempty⟩)).bind_of_returning
      intro _ t' ht'
      subst ht'
      exact meets_pure ⟨_, rfl, .inr ⟨FileStore.set_self, hempty⟩⟩ (.inr ⟨0, by omega, hempty⟩)

/-! ### Runs of writers and rotations -/

/-- A line is written to the log, or a rotation is started, which may be cut off. -/
inductive LogEvent where
  | append (line : Bytes)
  | rotate (maximumBytes : ℤ)

inductive LogStep (log : FilePath) (retentionCount : ℤ) : Files → LogEvent → Files → Prop where
  | append (files : Files) (line : Bytes) :
    LogStep log retentionCount files (.append line)
      (files.set log (some (content files log ++ line)))
  | rotate {files t : Files} {maximumBytes : ℤ}
    (h : (rotateLog log maximumBytes retentionCount).Passes files t) :
    LogStep log retentionCount files (.rotate maximumBytes) t

inductive LogRun (log : FilePath) (retentionCount : ℤ) : Files → List LogEvent → Files → Prop where
  | nil (files : Files) : LogRun log retentionCount files [] files
  | concat {files t files' : Files} {events : List LogEvent} {event : LogEvent}
    (h : LogRun log retentionCount files events t)
    (hstep : LogStep log retentionCount t event files') :
    LogRun log retentionCount files (events ++ [event]) files'

/-- All that is written to the log. -/
def written (events : List LogEvent) : Bytes :=
  events.flatMap fun
    | .append line => line
    | .rotate _ => []

def rotations (events : List LogEvent) : ℕ :=
  events.countP fun
    | .append _ => false
    | .rotate _ => true

@[simp] theorem written_concat (events : List LogEvent) (event : LogEvent) :
    written (events ++ [event]) = written events ++ written [event] := by
  simp [written]

@[simp] theorem rotations_concat (events : List LogEvent) (event : LogEvent) :
    rotations (events ++ [event]) = rotations events + rotations [event] := by
  simp [rotations]

theorem suffix_append_append {before after : Bytes} (h : before <:+ after) (line : Bytes) :
    before ++ line <:+ after ++ line := by
  obtain ⟨front, rfl⟩ := h
  exact ⟨front, (List.append_assoc _ _ _).symm⟩

theorem kept_append (line : Bytes) (k : ℕ) :
    kept log (files.set log (some (content files log ++ line))) (k + 1) =
      kept log files (k + 1) ++ line := by
  induction k with
  | zero => simp [kept, slot]
  | succ k ih =>
    have hslot : content (files.set log (some (content files log ++ line))) (slot log (k + 1)) =
        content files (slot log (k + 1)) := content_set_of_ne indexed_ne_log
    rw [kept, ih, hslot, ← List.append_assoc]
    rfl

/-- On its way a rotation keeps what the slots held, one slot higher at most. -/
theorem OnTheWay.kept_suffix (h : OnTheWay log top files t) (hk : k ≤ top) :
    kept log files k <:+ kept log t (k + 1) := by
  rcases h with rfl | ⟨m, hm, hmoved⟩
  · exact List.suffix_append _ _
  · by_cases hmk : m ≤ k
    · rewrite [hmoved.kept_above hmk hk]
      exact List.suffix_rfl
    · rw [hmoved.kept_below (by omega)]
      exact List.suffix_append _ _

/-- What a rotation does away with is the oldest log. -/
theorem OnTheWay.suffix_kept (h : OnTheWay log top files t) :
    kept log t (top + 1) <:+ kept log files (top + 1) := by
  rcases h with rfl | ⟨m, hm, hmoved⟩
  · exact List.suffix_rfl
  · rw [hmoved.kept_above hm le_rfl]
    exact List.suffix_append _ _

theorem OnTheWay.other (h : OnTheWay log top files t) {path : FilePath}
    (hpath : ∀ i ≤ top, path ≠ slot log i) : t path = files path := by
  rcases h with rfl | ⟨m, hm, hmoved⟩
  · rfl
  · exact hmoved.other path hpath

theorem LogStep.onTheWay {retentionCount maximumBytes : ℤ}
    (h : LogStep log retentionCount files (.rotate maximumBytes) t) :
    OnTheWay log (slots retentionCount) files t := by
  cases h with
  | rotate hpasses => exact (meets_rotateLog log maximumBytes retentionCount files).passes t hpasses

/-- What the files of a log keep is the end of what they held and of what was written, in its order,
whatever rotations were cut off wherever; nothing is lost of what was written within as many
rotations as there are slots; and no other file is touched. -/
theorem rotateLog_run {retentionCount : ℤ} {events : List LogEvent}
    (h : LogRun log retentionCount files events files') :
    kept log files' (slots retentionCount + 1) <:+
        kept log files (slots retentionCount + 1) ++ written events ∧
      (rotations events ≤ slots retentionCount →
        written events <:+ kept log files' (slots retentionCount + 1)) ∧
      ∀ path, (∀ i ≤ slots retentionCount, path ≠ slot log i) → files' path = files path := by
  -- after `r` rotations what was written is in the first `r + 1` slots
  have hrecent : rotations events ≤ slots retentionCount →
      written events <:+ kept log files' (rotations events + 1) := by
    induction h with
    | nil => simp [written]
    | @concat t files' events event hrun hstep ih =>
      intro hle
      rw [rotations_concat] at hle
      have hbefore := ih (by omega)
      rw [written_concat, rotations_concat]
      cases event with
      | append line =>
        cases hstep
        have hadded : written [.append line] = line := by simp [written]
        have hcount : rotations [.append line] = 0 := by simp [rotations]
        rw [hadded, hcount, Nat.add_zero, kept_append]
        exact suffix_append_append hbefore line
      | rotate maximumBytes =>
        have hway := hstep.onTheWay
        have hadded : written [.rotate maximumBytes] = [] := by simp [written]
        have hcount : rotations [.rotate maximumBytes] = 1 := by simp [rotations]
        rw [hcount] at hle
        rw [hadded, hcount, List.append_nil]
        exact hbefore.trans (hway.kept_suffix (by omega))
  refine ⟨?_, fun hle => (hrecent hle).trans (kept_suffix_kept (by omega)), ?_⟩
  · clear hrecent
    induction h with
    | nil => simp [written]
    | @concat t files' events event hrun hstep ih =>
      rw [written_concat]
      cases event with
      | append line =>
        cases hstep
        have hadded : written [.append line] = line := by simp [written]
        rw [hadded, kept_append, ← List.append_assoc]
        exact suffix_append_append ih line
      | rotate maximumBytes =>
        have hadded : written [.rotate maximumBytes] = [] := by simp [written]
        rw [hadded, List.append_nil]
        exact hstep.onTheWay.suffix_kept.trans ih
  · clear hrecent
    intro path hpath
    induction h with
    | nil => rfl
    | @concat t files' events event hrun hstep ih =>
      rw [← ih]
      cases event with
      | append line =>
        cases hstep
        exact FileStore.set_of_ne (hpath 0 (by omega))
      | rotate maximumBytes => exact hstep.onTheWay.other hpath

/-- A log of two lines, rotated in between. -/
theorem rotateLog_run_twoLines :
    let log : FilePath := ⟨"logs", "sidecar.log"⟩
    let events : List LogEvent := [.append [1, 2, 3], .rotate 2, .append [4]]
    ∃ files', LogRun log 2 (fun _ => none) events files' ∧
      kept log files' (slots 2 + 1) <:+ kept log (fun _ => none) (slots 2 + 1) ++ written events ∧
      (rotations events ≤ slots 2 → written events <:+ kept log files' (slots 2 + 1)) ∧
      ∀ path, (∀ i ≤ slots 2, path ≠ slot log i) → files' path = none := by
  intro log events
  have hrun : LogRun log 2 (fun _ => none) events _ :=
    .concat (.concat (.concat (.nil _) (.append _ [1, 2, 3]))
      (.rotate ((rotateLog log 2 2).last _))) (.append _ [4])
  exact ⟨_, hrun, rotateLog_run hrun⟩

end LogRotation

/-! ### Restore of a database -/

/-- A record of `recovery-events.jsonl`. -/
structure RecoveryEvent where
  restoredAt : String
  backup : String
  checksum : String
  event : String := "database_backup_restored"
  preRestoreBackup : Option String
  restartRequired : Bool := true

/-- SHA-256, the checksum in the text of the metadata, and a record as a line of text. -/
structure RecoveryText where
  sha256 : Bytes → String
  recordedSha256 : Bytes → Except Exc (Option String)
  eventLine : RecoveryEvent → Bytes

structure RestoreResult where
  restoredDatabase : FilePath
  sourceBackup : FilePath
  preRestoreBackup : Option FilePath
  checksum : String
  recoveryEvent : FilePath

/-- `backup.with_suffix(f"{backup.suffix}.json")`. -/
def metadataPath (backup : FilePath) : FilePath := backup.withName (backup.name ++ ".json")

def preRestorePath (database : FilePath) (stamp : String) : FilePath :=
  database.withName (database.name ++ ".pre-restore-" ++ stamp ++ ".bak")

def temporaryPath (database : FilePath) : FilePath :=
  database.withName ("." ++ database.name ++ ".restore.tmp")

def eventPath (database : FilePath) : FilePath := database.withName "recovery-events.jsonl"

/-- The copy of the database that is about to be replaced. -/
def copyBeforeRestore (database : FilePath) (stamp : String) : FileProgram (Option FilePath) := do
  let files ← read
  if (files database).isSome then
    database.copy (preRestorePath database stamp)
    return some (preRestorePath database stamp)
  else return none

/-- The backup takes the place of the database. -/
def installBackup (database backup : FilePath) : FileProgram Unit :=
  tryFinally
    (do
      backup.copy (temporaryPath database)
      (temporaryPath database).replace database)
    fun files => files.set (temporaryPath database) none

/-- The restore behind its checks. -/
def restoreChecked (text : RecoveryText) (database backup : FilePath)
    (checksum stamp now : String) : FileProgram RestoreResult := do
  let preRestore ← copyBeforeRestore database stamp
  installBackup database backup
  (eventPath database).appendLine (text.eventLine
    { restoredAt := now
      backup := backup.name
      checksum
      preRestoreBackup := preRestore.map FilePath.name })
  return {
    restoredDatabase := database
    sourceBackup := backup
    preRestoreBackup := preRestore
    checksum
    recoveryEvent := eventPath database }

/-- `restore_database_backup`; the clock reads `stamp` and then `now`. -/
def restoreDatabaseBackup (text : RecoveryText) (database backup : FilePath)
    (confirm stamp now : String) : FileProgram RestoreResult := do
  if confirm ≠ "RESTORE_DATABASE_BACKUP" then
    raise ⟨.valueError, "Explicit restore confirmation is required"⟩
  else
    let metadata ← (metadataPath backup).readBytes
    match text.recordedSha256 metadata with
    | .error e => raise e
    | .ok recorded =>
      let content ← backup.readBytes
      let checksum := text.sha256 content
      if recorded ≠ some checksum then raise ⟨.valueError, "Backup checksum mismatch"⟩
      else restoreChecked text database backup checksum stamp now

namespace DatabaseRestore

variable {text : RecoveryText} {database backup path other : FilePath} {stamp : String}
  {files files' s t : Files} {c : Bytes}

/-- The last character of a file name. -/
def lastChar (path : FilePath) : Option Char := path.name.toList.getLast?

theorem getLast?_append (front : String) {suffix : String} {char : Char}
    (h : suffix.toList.getLast? = some char) :
    (front ++ suffix).toList.getLast? = some char := by
  rw [String.toList_append, List.getLast?_append, h]
  rfl

theorem lastChar_preRestorePath : lastChar (preRestorePath database stamp) = some 'k' :=
  getLast?_append _ (by decide)

theorem lastChar_temporaryPath : lastChar (temporaryPath database) = some 'p' :=
  getLast?_append _ (by decide)

theorem lastChar_eventPath : lastChar (eventPath database) = some 'l' := by
  change ("recovery-events.jsonl" : String).toList.getLast? = some 'l'
  decide

theorem preRestorePath_ne_database : preRestorePath database stamp ≠ database := by
  intro h
  have hlength := congrArg (fun path => path.name.toList.length) h
  simp [preRestorePath, FilePath.withName] at hlength

theorem temporaryPath_ne_database : temporaryPath database ≠ database := by
  intro h
  have hlength := congrArg (fun path => path.name.toList.length) h
  simp [temporaryPath, FilePath.withName] at hlength
  omega

theorem preRestorePath_ne_temporaryPath :
    preRestorePath database stamp ≠ temporaryPath database := by
  intro h
  have hchar := congrArg lastChar h
  rw [lastChar_preRestorePath, lastChar_temporaryPath] at hchar
  exact absurd hchar (by decide)

theorem preRestorePath_ne_eventPath : preRestorePath database stamp ≠ eventPath database := by
  intro h
  have hchar := congrArg lastChar h
  rw [lastChar_preRestorePath, lastChar_eventPath] at hchar
  exact absurd hchar (by decide)

theorem temporaryPath_ne_eventPath : temporaryPath database ≠ eventPath database := by
  intro h
  have hchar := congrArg lastChar h
  rw [lastChar_temporaryPath, lastChar_eventPath] at hchar
  exact absurd hchar (by decide)

theorem preRestorePath_injective {stamp' : String}
    (h : preRestorePath database stamp = preRestorePath database stamp') : stamp = stamp' := by
  have hname := congrArg FilePath.name h
  simpa [preRestorePath, FilePath.withName] using hname

/-- The files beside some paths are the same. -/
def SameOff (paths : List FilePath) (files t : Files) : Prop :=
  ∀ path ∉ paths, t path = files path

theorem sameOff_refl {paths : List FilePath} : SameOff paths files files := fun _ _ => rfl

theorem SameOff.set {paths : List FilePath} (h : SameOff paths files t) (hpath : path ∈ paths)
    (content : Option Bytes) : SameOff paths files (t.set path content) := by
  intro other hother
  have hne : other ≠ path := fun heq => hother (heq ▸ hpath)
  rw [FileStore.set_of_ne hne, h other hother]

theorem SameOff.trans {paths paths' : List FilePath} (h : SameOff paths files s)
    (h' : SameOff paths' s t) (hpaths : ∀ path ∈ paths, path ∈ paths') :
    SameOff paths' files t := by
  intro other hother
  rw [h' other hother, h other fun hmem => hother (hpaths other hmem)]

/-- The backup and the recovery events are files of their own. -/
structure Apart (database backup : FilePath) (stamp : String) : Prop where
  database_ne_event : database ≠ eventPath database
  backup_ne_preRestore : backup ≠ preRestorePath database stamp
  backup_ne_temporary : backup ≠ temporaryPath database

/-- The metadata of the backup records the checksum of the content. -/
def Verified (text : RecoveryText) (backup : FilePath) (files : Files) (c : Bytes) : Prop :=
  files backup = some c ∧ ∃ metadata, files (metadataPath backup) = some metadata ∧
    text.recordedSha256 metadata = .ok (some (text.sha256 c))

/-- Where a restore is on its way: the database is the old one, or a verified backup beside a copy
of the old one. -/
structure OnTheWay (text : RecoveryText) (database backup : FilePath) (stamp : String)
    (files t : Files) : Prop where
  current : t database = files database ∨ ∃ c, t database = some c ∧ Verified text backup files c ∧
    ∀ old, files database = some old → t (preRestorePath database stamp) = some old
  events : files.content (eventPath database) <+: t.content (eventPath database)
  other : SameOff [database, preRestorePath database stamp, temporaryPath database,
    eventPath database] files t

theorem SameOff.onTheWay (h : SameOff [preRestorePath database stamp] files t) :
    OnTheWay text database backup stamp files t where
  current := .inl (h database (by simpa using preRestorePath_ne_database.symm))
  events := by
    have hevents : t (eventPath database) = files (eventPath database) :=
      h _ (by simpa using preRestorePath_ne_eventPath.symm)
    exact Files.content_congr hevents ▸ List.prefix_rfl
  other path hpath := h path (by simp_all)

theorem meets_copyBeforeRestore (files : Files) :
    Meets (copyBeforeRestore database stamp) files
      (Returning fun _ t => SameOff [preRestorePath database stamp] files t ∧
        ∀ old, files database = some old → t (preRestorePath database stamp) = some old)
      (SameOff [preRestorePath database stamp] files) := by
  apply meets_read_bind
  cases hdatabase : files database with
  | none => exact meets_pure ⟨none, rfl, sameOff_refl, nofun⟩ sameOff_refl
  | some old =>
    rw [if_pos (Option.isSome_some)]
    apply (meets_copy hdatabase preRestorePath_ne_database.symm sameOff_refl
      fun part => sameOff_refl.set List.mem_cons_self _).bind_of_returning
    intro _ t ht
    subst ht
    have hsame : SameOff [preRestorePath database stamp] files
        (files.set (preRestorePath database stamp) (some old)) :=
      sameOff_refl.set List.mem_cons_self _
    refine meets_pure ⟨_, rfl, hsame, fun old' hold => ?_⟩ hsame
    rw [FileStore.set_self, hold]

/-- The database is the old one or the backup. -/
def Installing (database : FilePath) (c : Bytes) (s t : Files) : Prop :=
  (t database = s database ∨ t database = some c) ∧
    SameOff [database, temporaryPath database] s t

theorem meets_installBackup (hbackup : s backup = some c)
    (hne : backup ≠ temporaryPath database) :
    Meets (installBackup database backup) s
      (Returning fun _ t => t database = some c ∧ t (temporaryPath database) = none ∧
        SameOff [database, temporaryPath database] s t)
      (Installing database c s) := by
  have hdatabase : ∀ (t : Files) content,
      (t.set (temporaryPath database) content) database = t database :=
    fun t content => FileStore.set_of_ne temporaryPath_ne_database.symm
  have hcopied : ∀ part, Installing database c s (s.set (temporaryPath database) (some part)) :=
    fun part => ⟨.inl (hdatabase _ _), sameOff_refl.set (by simp) _⟩
  apply Meets.tryFinally
  apply (meets_copy hbackup hne ⟨.inl rfl, sameOff_refl⟩ hcopied).bind_of_returning
  intro _ t ht
  subst ht
  have hinstalled : SameOff [database, temporaryPath database] s
      (((s.set (temporaryPath database) (some c)).set (temporaryPath database) none).set database
        (some c)) :=
    ((sameOff_refl.set (by simp) _).set (by simp) _).set (by simp) _
  apply (meets_replace FileStore.set_self (hcopied c)
    (show Installing database c s _ from ⟨.inr FileStore.set_self, hinstalled⟩)).mono
  · intro outcome t ht
    obtain ⟨a, rfl, rfl⟩ := ht
    have hend : ∀ t : Files, ((t.set database (some c)).set (temporaryPath database) none)
        database = some c := fun t => (hdatabase _ none).trans FileStore.set_self
    have hmem : temporaryPath database ∈ [database, temporaryPath database] := by simp
    have hsame := hinstalled.set hmem none
    exact ⟨⟨a, rfl, hend _, FileStore.set_self, hsame⟩, .inr (hend _), hsame⟩
  · exact fun t ht => ht

/-- What a restore leaves that returned: the verified backup in place of the database, of which there
is a copy, and one more line in the recovery events. -/
structure Restored (text : RecoveryText) (database backup : FilePath) (stamp now : String)
    (files : Files) (result : RestoreResult) (t : Files) : Prop where
  current : ∃ c, Verified text backup files c ∧ t database = some c
  copied : ∀ old, files database = some old → t (preRestorePath database stamp) = some old
  temporary : t (temporaryPath database) = none
  events : t.content (eventPath database) =
    files.content (eventPath database) ++ text.eventLine
      { restoredAt := now
        backup := backup.name
        checksum := result.checksum
        preRestoreBackup := result.preRestoreBackup.map FilePath.name }

theorem meets_restoreChecked (now : String) (hapart : Apart database backup stamp)
    (hverified : Verified text backup files c) :
    Meets (restoreChecked text database backup (text.sha256 c) stamp now) files
      (Returning fun result t => Restored text database backup stamp now files result t)
      (OnTheWay text database backup stamp files) := by
  apply ((meets_copyBeforeRestore files).mono (fun _ _ h => h)
    fun t h => h.onTheWay).bind_of_returning
  intro preRestore s hs
  obtain ⟨hs, hcopy⟩ := hs
  have hbackup : s backup = some c :=
    (hs backup (by simpa using hapart.backup_ne_preRestore)).trans hverified.1
  have hevent : s (eventPath database) = files (eventPath database) :=
    hs _ (by simpa using preRestorePath_ne_eventPath.symm)
  have hway : ∀ t, Installing database c s t → OnTheWay text database backup stamp files t := by
    intro t ht
    have hpre : t (preRestorePath database stamp) = s (preRestorePath database stamp) :=
      ht.2 _ (by simp [preRestorePath_ne_database, preRestorePath_ne_temporaryPath])
    have hevents : t (eventPath database) = files (eventPath database) :=
      (ht.2 _ (by simp [hapart.database_ne_event.symm, temporaryPath_ne_eventPath.symm])).trans
        hevent
    refine ⟨?_, ?_, hs.trans (ht.2.trans sameOff_refl ?_) ?_⟩
    · rcases ht.1 with hold | hnew
      · rw [hold, hs _ (by simpa using preRestorePath_ne_database.symm)]
        exact .inl rfl
      · exact .inr ⟨c, hnew, hverified, fun old hold => hpre.trans (hcopy old hold)⟩
    · exact Files.content_congr hevents ▸ List.prefix_rfl
    · intro path hpath
      simp only [List.mem_cons] at hpath ⊢
      tauto
    · simp
  apply ((meets_installBackup hbackup hapart.backup_ne_temporary).mono (fun _ _ h => h)
    hway).bind_of_returning
  intro _ t ht
  obtain ⟨hcurrent, htemporary, hsame⟩ := ht
  have hinstalled : Installing database c s t := ⟨.inr hcurrent, hsame⟩
  have hpre : t (preRestorePath database stamp) = s (preRestorePath database stamp) :=
    hsame _ (by simp [preRestorePath_ne_database, preRestorePath_ne_temporaryPath])
  have hevents : t.content (eventPath database) = files.content (eventPath database) := by
    rw [Files.content, Files.content, hsame (eventPath database)
      (by simp [hapart.database_ne_event.symm, temporaryPath_ne_eventPath.symm]), hevent]
  have hline : ∀ part, OnTheWay text database backup stamp files
      (t.set (eventPath database) (some (t.content (eventPath database) ++ part))) := by
    intro part
    have hbefore := hway t hinstalled
    refine ⟨?_, ?_, hbefore.other.set (by simp) _⟩
    · rw [FileStore.set_of_ne hapart.database_ne_event,
        FileStore.set_of_ne preRestorePath_ne_eventPath]
      exact hbefore.current
    · rw [Files.content_set_self, ← hevents]
      exact List.prefix_append _ _
  apply (meets_change (Q := Returning fun _ u => u =
      t.set (eventPath database) (some (t.content (eventPath database) ++ _))) ⟨(), rfl, rfl⟩
    (hway t hinstalled) (fun u hu => ?_) (hline _)).bind_of_returning
  · intro _ u hu
    subst hu
    refine meets_pure ⟨_, rfl, ?_⟩ (hline _)
    refine ⟨⟨c, hverified, ?_⟩, fun old hold => ?_, ?_, ?_⟩
    · rw [FileStore.set_of_ne hapart.database_ne_event, hcurrent]
    · rw [FileStore.set_of_ne preRestorePath_ne_eventPath, hpre, hcopy old hold]
    · rw [FileStore.set_of_ne temporaryPath_ne_eventPath, htemporary]
    · rw [Files.content_set_self, ← hevents]
      rfl
  · obtain ⟨part, rfl⟩ := hu
    exact hline part

/-- The restore is confirmed, and the backup has the checksum of its metadata. -/
def Accepted (text : RecoveryText) (backup : FilePath) (confirm : String) (files : Files) : Prop :=
  confirm = "RESTORE_DATABASE_BACKUP" ∧ ∃ c, Verified text backup files c

/-- What became of a restore that was not cut off. -/
def Completed (text : RecoveryText) (database backup : FilePath) (confirm stamp now : String)
    (files : Files) (outcome : Except Exc RestoreResult) (t : Files) : Prop :=
  Accepted text backup confirm files ∧
      (∃ result, outcome = .ok result ∧ Restored text database backup stamp now files result t) ∨
    ¬ Accepted text backup confirm files ∧ t = files ∧ ∃ e, outcome = .error e

/-- No file is touched before the backup is verified. -/
theorem meets_restoreDatabaseBackup (confirm now : String) (hapart : Apart database backup stamp)
    (files : Files) :
    Meets (restoreDatabaseBackup text database backup confirm stamp now) files
      (Completed text database backup confirm stamp now files)
      (fun t => t = files ∨ Accepted text backup confirm files ∧
        OnTheWay text database backup stamp files t) := by
  have hrefused : ¬ Accepted text backup confirm files → ∀ e,
      Completed text database backup confirm stamp now files (.error e) files :=
    fun h e => .inr ⟨h, rfl, e, rfl⟩
  by_cases hconfirm : confirm = "RESTORE_DATABASE_BACKUP"
  · rw [restoreDatabaseBackup, if_neg (not_not.mpr hconfirm)]
    cases hmetadata : files (metadataPath backup) with
    | none =>
      have hnot : ¬ Accepted text backup confirm files := by
        rintro ⟨-, c, -, metadata, hmetadata', -⟩
        rw [hmetadata] at hmetadata'
        cases hmetadata'
      apply (meets_readBytes_of_missing hmetadata (.inl rfl)).bind
      · intro _ _ h
        obtain ⟨-, e, he⟩ := h
        cases he
      · intro e s h
        rw [h.1]
        exact hrefused hnot e
    | some metadata =>
      apply (meets_readBytes hmetadata (.inl rfl)).bind_of_returning
      intro read s h
      rw [h.1, h.2]
      cases hrecorded : text.recordedSha256 metadata with
      | error e =>
        apply meets_raise (hrefused ?_ e) (.inl rfl)
        rintro ⟨-, c, -, metadata', hmetadata', hrecorded'⟩
        obtain rfl : metadata = metadata' := Option.some.inj (hmetadata.symm.trans hmetadata')
        rw [hrecorded] at hrecorded'
        cases hrecorded'
      | ok recorded =>
        cases hbackup : files backup with
        | none =>
          have hnot : ¬ Accepted text backup confirm files := by
            rintro ⟨-, c, hbackup', -⟩
            rw [hbackup] at hbackup'
            cases hbackup'
          apply (meets_readBytes_of_missing hbackup (.inl rfl)).bind
          · intro _ _ h
            obtain ⟨-, e, he⟩ := h
            cases he
          · intro e s h
            rw [h.1]
            exact hrefused hnot e
        | some c =>
          apply (meets_readBytes hbackup (.inl rfl)).bind_of_returning
          intro read s h
          rw [h.1, h.2]
          by_cases hmatch : recorded = some (text.sha256 c)
          · rw [if_neg (not_not.mpr hmatch)]
            have hverified : Verified text backup files c :=
              ⟨hbackup, metadata, hmetadata, hmatch ▸ hrecorded⟩
            have haccepted : Accepted text backup confirm files := ⟨hconfirm, c, hverified⟩
            exact (meets_restoreChecked now hapart hverified).mono
              (fun _ _ h => .inl ⟨haccepted, h⟩) fun _ h => .inr ⟨haccepted, h⟩
          · rw [if_pos hmatch]
            apply meets_raise (hrefused ?_ _) (.inl rfl)
            rintro ⟨-, c', hbackup', metadata', hmetadata', hrecorded'⟩
            obtain rfl : metadata = metadata' := Option.some.inj (hmetadata.symm.trans hmetadata')
            obtain rfl : c = c' := Option.some.inj (hbackup.symm.trans hbackup')
            exact hmatch (Except.ok.inj (hrecorded.symm.trans hrecorded'))
  · rw [restoreDatabaseBackup, if_pos hconfirm]
    exact meets_raise (hrefused (fun h => hconfirm h.1) _) (.inl rfl)

/-- A restore that is not cut off returns if and only if it is accepted, and then the backup is in
place and the old database beside it; else no file has changed. -/
theorem restoreDatabaseBackup_completed (text : RecoveryText) (confirm now : String)
    (hapart : Apart database backup stamp) (files : Files) :
    Completed text database backup confirm stamp now files
      ((restoreDatabaseBackup text database backup confirm stamp now).run files).1
      ((restoreDatabaseBackup text database backup confirm stamp now).run files).2 :=
  (meets_restoreDatabaseBackup confirm now hapart files).ends

section

def ascii (text : String) : Bytes := text.toList.map fun char => UInt8.ofNat char.toNat

def emptySha256 : String := "e3b0c44298fc1c149afbf4c8996fb92427ae41e4649b934ca495991b7852b855"

def emptyMetadata : Bytes := ascii ("\x7b\"sha256\": \"" ++ emptySha256 ++ "\"\x7d")

/-- The texts about an empty backup. -/
def emptyText : RecoveryText where
  sha256 content := if content = [] then emptySha256 else ""
  recordedSha256 metadata := if metadata = emptyMetadata then .ok (some emptySha256) else .ok none
  eventLine event := ascii ("\x7b\"at\": \"" ++ event.restoredAt ++ "\", \"backup\": \"" ++
    event.backup ++ "\", \"checksum\": \"" ++ event.checksum ++ "\", \"event\": \"" ++
    event.event ++ "\", \"pre_restore_backup\": " ++
    (match event.preRestoreBackup with
      | some name => "\"" ++ name ++ "\""
      | none => "null") ++
    ", \"restart_required\": " ++ toString event.restartRequired ++ "\x7d\n")

def installed : FilePath := ⟨"data", "platform.db"⟩

def emptyBackup : FilePath := ⟨"backups", "platform.db.bak"⟩

def installedFiles : Files := fun path =>
  if path = installed then some [1] else if path = emptyBackup then some []
  else if path = metadataPath emptyBackup then some emptyMetadata else none

theorem apart_installed (stamp : String) : Apart installed emptyBackup stamp where
  database_ne_event := by decide
  backup_ne_preRestore h := by
    have hparent : "backups" = "data" := congrArg FilePath.parent h
    exact absurd hparent (by decide)
  backup_ne_temporary := by decide

theorem restoreDatabaseBackup_completed_empty :
    Completed emptyText installed emptyBackup "RESTORE_DATABASE_BACKUP" "20250101T000000Z"
      "2025-01-01T00:00:00+00:00" installedFiles
      ((restoreDatabaseBackup emptyText installed emptyBackup "RESTORE_DATABASE_BACKUP"
        "20250101T000000Z" "2025-01-01T00:00:00+00:00").run installedFiles).1
      ((restoreDatabaseBackup emptyText installed emptyBackup "RESTORE_DATABASE_BACKUP"
        "20250101T000000Z" "2025-01-01T00:00:00+00:00").run installedFiles).2 :=
  restoreDatabaseBackup_completed _ _ _ (apart_installed _) _

end

/-! ### Runs of restores -/

/-- The arguments of a restore and what the clock reads. -/
structure RestoreCall where
  backup : FilePath
  confirm : String
  stamp : String
  now : String

/-- One restore after the other, each of which may be cut off. -/
inductive RestoreRun (text : RecoveryText) (database : FilePath) :
    Files → List RestoreCall → Files → Prop where
  | nil (files : Files) : RestoreRun text database files [] files
  | concat {files t files' : Files} {calls : List RestoreCall} {call : RestoreCall}
    (h : RestoreRun text database files calls t)
    (hstep : (restoreDatabaseBackup text database call.backup call.confirm call.stamp
      call.now).Passes t files') :
    RestoreRun text database files (calls ++ [call]) files'

/-- The database is what it was, or a backup that one of the calls accepted. -/
def Current (text : RecoveryText) (database : FilePath) (files : Files) (calls : List RestoreCall)
    (files' : Files) : Prop :=
  files' database = files database ∨ ∃ before call after u c, calls = before ++ call :: after ∧
    RestoreRun text database files before u ∧ call.confirm = "RESTORE_DATABASE_BACKUP" ∧
      Verified text call.backup u c ∧ files' database = some c

variable {calls : List RestoreCall}

theorem Current.concat {call : RestoreCall} (h : Current text database files calls t)
    (hsame : files' database = t database) :
    Current text database files (calls ++ [call]) files' := by
  obtain h | ⟨before, call', after, u, c, hcalls, hrun, hconfirm, hverified, hcurrent⟩ := h
  · exact .inl (hsame.trans h)
  · refine .inr ⟨before, call', after ++ [call], u, c, ?_, hrun, hconfirm, hverified,
      hsame.trans hcurrent⟩
    simp [hcalls]

/-- The files that restores write. -/
def writtenPaths (database : FilePath) (calls : List RestoreCall) : List FilePath :=
  [database, temporaryPath database, eventPath database] ++
    calls.map fun call => preRestorePath database call.stamp

theorem mem_writtenPaths_concat {call : RestoreCall} :
    path ∈ writtenPaths database (calls ++ [call]) ↔
      path ∈ writtenPaths database calls ∨ path = preRestorePath database call.stamp := by
  rw [writtenPaths, writtenPaths, List.map_append, ← List.append_assoc, List.mem_append]
  simp

end DatabaseRestore

end OptionResearch
