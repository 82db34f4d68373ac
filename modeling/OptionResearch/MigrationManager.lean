import OptionResearch.PythonValues
import OptionResearch.PartialEffects

/-!
# The migration of the database file

`MigrationManager` of `release/migration.py`: a backup of the database file, a marker beside it, the
upgrade in place or the bootstrap of a new file, and the restore of the backup. The steps of Alembic
may leave anything in the file they work on, whether they return or raise. A migration is contained
except for three behaviours of the upgrade: it returns at another revision, it raises and has
removed the file, or it is interrupted with the file changed.
-/

namespace OptionResearch

inductive MigrationStatus where
  | required
  | running
  | completed
  | failed
  | schemaTooNew
  | schemaTooOld
  | recoveryRequired
  deriving DecidableEq, Repr

def MigrationStatus.value : MigrationStatus → String
  | .required => "migration_required"
  | .running => "migration_running"
  | .completed => "migration_completed"
  | .failed => "migration_failed"
  | .schemaTooNew => "schema_too_new"
  | .schemaTooOld => "schema_too_old"
  | .recoveryRequired => "recovery_required"

/-- What a step raises; `except Exception` lets an interrupt pass. -/
inductive Raised where
  | exception (x : Exc)
  | interrupt (name : String)

/-- What is read of the content of a file: its size, its checksum, and the row of
`alembic_version`, where there is one and the content is a database. -/
structure FileReader (C : Type) where
  size : C → Nat
  sha256 : C → String
  versionNum : C → Option String

structure BackupMetadata where
  createdAt : DateTime
  releaseVersion : String
  sha256 : String
  sizeBytes : Nat
  sourceRevision : String
  targetRevision : String

/-- The files of a migration. A path that does not exist is `none`; the name of the backup also
holds the two revisions. -/
structure MigrationFiles (C : Type) where
  database : Option C
  marker : Option String := none
  backup : Option C := none
  backupMetadata : Option BackupMetadata := none
  failed : Option C := none
  bootstrap : Option C := none

structure MigrationResult where
  status : MigrationStatus
  previousRevision : Option String
  currentRevision : Option String
  backupChecksum : Option String := none
  deriving DecidableEq

/-- The versions of the release configuration. -/
structure SchemaVersions where
  applicationVersion : String
  databaseSchemaCurrent : String
  databaseSchemaMinimum : String

/-- A step on one file. It may leave anything in it, or nothing. -/
abbrev FileStep (C : Type) := Effect (Option C) Raised Unit

/-- What is outside the manager: the free space, the clock, the imports, and the steps of SQLAlchemy
and Alembic. -/
structure MigrationSteps (C : Type) where
  free : Nat
  now : DateTime
  importModules : Except Raised Unit
  createAll : FileStep C
  stamp : FileStep C
  upgrade : FileStep C

namespace MigrationManager

variable {C : Type}

abbrev Action (C α : Type) := Effect (MigrationFiles C) Raised α

def onDatabase (step : FileStep C) : Action C Unit :=
  ExceptT.mk fun files =>
    ((Effect.exec step files.database).1,
      { files with database := (Effect.exec step files.database).2 })

def onBootstrap (step : FileStep C) : Action C Unit :=
  ExceptT.mk fun files =>
    ((Effect.exec step files.bootstrap).1,
      { files with bootstrap := (Effect.exec step files.bootstrap).2 })

def fileNotFound : Raised := .exception ⟨.other "FileNotFoundError", "No such file or directory"⟩

def runtimeError (message : String) : Raised := .exception ⟨.other "RuntimeError", message⟩

def unexpectedRevision (current : Option String) : Raised :=
  let shown := current.getD "None"
  runtimeError s!"Unexpected database revision after migration: {shown}"

variable (reader : FileReader C) (versions : SchemaVersions) (steps : MigrationSteps C)

def revision (files : MigrationFiles C) : Option String :=
  match files.database with
  | none => none
  | some content => if reader.size content = 0 then none else reader.versionNum content

/-- `self.database.exists() and self.database.stat().st_size > 0`. -/
def hasContent (files : MigrationFiles C) : Bool :=
  match files.database with
  | none => false
  | some content => decide (0 < reader.size content)

/-- Revisions are compared as strings. -/
def status (files : MigrationFiles C) : MigrationStatus :=
  if files.marker.isSome then .recoveryRequired
  else
    match revision reader files with
    | none => if hasContent reader files then .recoveryRequired else .required
    | some revision =>
      if revision < versions.databaseSchemaCurrent then
        if revision < versions.databaseSchemaMinimum then .schemaTooOld else .required
      else if versions.databaseSchemaCurrent < revision then .schemaTooNew
      else .completed

/-- `_backup`; the copy is made under a temporary name. -/
def backup (previous : String) : Action C String := do
  let files ← get
  match files.database with
  | none => Effect.raising (.error fileNotFound)
  | some content =>
    if steps.free < reader.size content * 2 then
      Effect.raising (.error (.exception
        ⟨.other "OSError", "Insufficient disk space for pre-migration backup"⟩))
    else
      let checksum := reader.sha256 content
      modify fun files => { files with backup := some content }
      modify fun files =>
        { files with
          backupMetadata := some
            { createdAt := steps.now
              releaseVersion := versions.applicationVersion
              sha256 := checksum
              sizeBytes := reader.size content
              sourceRevision := previous
              targetRevision := versions.databaseSchemaCurrent } }
      return checksum

/-- `temporary.replace(self.database)`. -/
def replaceDatabase : Action C Unit := do
  let files ← get
  match files.bootstrap with
  | none => Effect.raising (.error fileNotFound)
  | some content => modify fun files => { files with database := some content, bootstrap := none }

/-- `try: body finally: cleanup`. -/
def tryFinally (body : Action C Unit) (cleanup : MigrationFiles C → MigrationFiles C) :
    Action C Unit := do
  tryCatch body fun x => do
    modify cleanup
    throw x
  modify cleanup

def bootstrap : Action C Unit := do
  Effect.raising steps.importModules
  modify fun files => { files with bootstrap := none }
  onBootstrap steps.createAll
  tryFinally
    (do
      onBootstrap steps.stamp
      onBootstrap steps.upgrade
      replaceDatabase)
    fun files => { files with bootstrap := none }

/-- `self.database.replace(failed)` and the copy of the backup. -/
def restore : Action C Unit := do
  let files ← get
  match files.database with
  | none => Effect.raising (.error fileNotFound)
  | some content =>
    modify fun files => { files with failed := some content, database := none }
    modify fun files => { files with database := files.backup }

/-- The step of a migration: a new file, or the upgrade of the old one. -/
def step (previous : Option String) : Action C Unit :=
  match previous with
  | none => bootstrap steps
  | some _ => onDatabase steps.upgrade

/-- The step under its handler. -/
def guarded (previous : Option String) : Action C Unit :=
  tryCatch (step steps previous) fun x =>
    match x with
    | .exception _ => do
      if previous.isSome then restore
      modify fun files => { files with marker := some MigrationStatus.failed.value }
      throw x
    | .interrupt _ => throw x

/-- A migration from the backup on. -/
def migrateFrom (previous backupChecksum : Option String) : Action C MigrationResult := do
  modify fun files => { files with marker := some MigrationStatus.running.value }
  guarded steps previous
  modify fun files => { files with marker := none }
  let current := revision reader (← get)
  if current = some versions.databaseSchemaCurrent then
    return {
      status := .completed
      previousRevision := previous
      currentRevision := current
      backupChecksum := backupChecksum }
  else Effect.raising (.error (unexpectedRevision current))

def migrate : Action C MigrationResult := do
  let files ← get
  let initialStatus := status reader versions files
  match initialStatus with
  | .recoveryRequired =>
    Effect.raising (.error (runtimeError "Interrupted migration requires recovery"))
  | .schemaTooNew =>
    Effect.raising (.error (runtimeError "Database schema is newer than this application"))
  | .schemaTooOld =>
    Effect.raising (.error
      (runtimeError "Database schema is older than the supported upgrade range"))
  | _ =>
    let previous := revision reader files
    if initialStatus = .completed then
      return { status := initialStatus, previousRevision := previous, currentRevision := previous }
    else
      let backupChecksum ← match previous with
        | some previous => do
          let checksum ← backup reader versions steps previous
          pure (some checksum)
        | none => pure none
      migrateFrom reader versions steps previous backupChecksum

/-! ### What a migration leaves -/

section

variable {reader : FileReader C} {versions : SchemaVersions} {steps : MigrationSteps C}
  {files : MigrationFiles C}

/-- The revision of a file, `none` where it is missing. -/
def revisionOf (reader : FileReader C) (file : Option C) : Option String :=
  revision reader { database := file }

/-- The steps that make a new file. -/
def newFile (steps : MigrationSteps C) : Effect (Option C) Raised Unit := do
  steps.createAll
  steps.stamp
  steps.upgrade

/-- The bootstrap makes a file of that content. -/
def Makes (steps : MigrationSteps C) (content : C) : Prop :=
  steps.importModules = .ok () ∧ Effect.exec (newFile steps) none = (.ok (), some content)

/-- No database yet, or one at a supported older revision. -/
structure Startable (reader : FileReader C) (versions : SchemaVersions) (files : MigrationFiles C) :
    Prop where
  unmarked : files.marker = none
  old : ∀ content, files.database = some content →
    reader.size content ≠ 0 ∧ ∃ revision, reader.versionNum content = some revision ∧
      ¬ revision < versions.databaseSchemaMinimum ∧ revision < versions.databaseSchemaCurrent

/-- There is room for the backup. -/
def Roomy (reader : FileReader C) (steps : MigrationSteps C) (files : MigrationFiles C) : Prop :=
  ∀ content, files.database = some content → reader.size content * 2 ≤ steps.free

/-- The steps end at the current revision, or raise with the database file still there, or are
interrupted before they change it; a new file, where one is made, is of the current revision. -/
def Harmless (reader : FileReader C) (versions : SchemaVersions) (steps : MigrationSteps C)
    (files : MigrationFiles C) : Prop :=
  match files.database with
  | none => ∀ content, Makes steps content →
      revisionOf reader (some content) = some versions.databaseSchemaCurrent
  | some content =>
    match Effect.exec steps.upgrade (some content) with
    | (.ok _, file) => revisionOf reader file = some versions.databaseSchemaCurrent
    | (.error (.exception _), file) => file ≠ none
    | (.error (.interrupt _), file) => file = some content

/-- After a migration that raised behind the backup, the database is as it was and recovery is
called for; after one that returned, it is of the current revision and not marked. -/
structure Contained (reader : FileReader C) (versions : SchemaVersions) (steps : MigrationSteps C)
    (files : MigrationFiles C) : Prop where
  raised : ∀ x files', Effect.exec (migrate reader versions steps) files = (.error x, files') →
    Roomy reader steps files → files'.database = files.database ∧
      status reader versions files' = .recoveryRequired
  returned : ∀ result files',
    Effect.exec (migrate reader versions steps) files = (.ok result, files') →
      revision reader files' = some versions.databaseSchemaCurrent ∧ files'.marker = none

theorem exec_onDatabase (step : FileStep C) (files : MigrationFiles C) :
    Effect.exec (onDatabase step) files = ((Effect.exec step files.database).1,
      { files with database := (Effect.exec step files.database).2 }) := rfl

theorem exec_onBootstrap (step : FileStep C) (files : MigrationFiles C) :
    Effect.exec (onBootstrap step) files = ((Effect.exec step files.bootstrap).1,
      { files with bootstrap := (Effect.exec step files.bootstrap).2 }) := rfl

theorem status_of_marker (h : files.marker.isSome) :
    status reader versions files = .recoveryRequired := if_pos h

theorem revision_eq_revisionOf (files : MigrationFiles C) :
    revision reader files = revisionOf reader files.database := rfl

theorem makes_iff {content : C} : Makes steps content ↔
    steps.importModules = .ok () ∧ ∃ created stamped,
      Effect.exec steps.createAll none = (.ok (), created) ∧
      Effect.exec steps.stamp created = (.ok (), stamped) ∧
      Effect.exec steps.upgrade stamped = (.ok (), some content) := by
  rw [Makes, newFile]
  refine and_congr_right fun _ => ⟨fun h => ?_, ?_⟩
  · rcases Effect.exec_bind_cases h with ⟨x, -, hraised⟩ | ⟨_, created, hcreate, h⟩
    · cases hraised
    rcases Effect.exec_bind_cases h with ⟨x, -, hraised⟩ | ⟨_, stamped, hstamp, hupgrade⟩
    · cases hraised
    exact ⟨created, stamped, hcreate, hstamp, hupgrade⟩
  · rintro ⟨created, stamped, hcreate, hstamp, hupgrade⟩
    rw [Effect.exec_bind_of_ok hcreate, Effect.exec_bind_of_ok hstamp, hupgrade]

/-- A failing bootstrap leaves the database and its marker alone. -/
theorem bootstrap_cases (steps : MigrationSteps C) (files : MigrationFiles C) :
    (∃ x files', Effect.exec (bootstrap steps) files = (.error x, files') ∧
        files'.database = files.database ∧ files'.marker = files.marker ∧
        ∀ content, ¬ Makes steps content) ∨
      ∃ content, Makes steps content ∧ Effect.exec (bootstrap steps) files =
        (.ok (), { files with database := some content, bootstrap := none }) := by
  rw [bootstrap, Effect.exec_raising_bind]
  cases himports : steps.importModules with
  | error x =>
    refine .inl ⟨x, files, rfl, rfl, rfl, ?_⟩
    rintro content ⟨hok, -⟩
    exact absurd (himports.symm.trans hok) nofun
  | ok u =>
    dsimp only
    rw [Effect.exec_modify_bind, Effect.exec_bind, exec_onBootstrap]
    dsimp only
    rcases hcreate : Effect.exec steps.createAll none with ⟨x | u, created⟩
    · refine .inl ⟨x, _, rfl, rfl, rfl, fun content hmakes => ?_⟩
      obtain ⟨-, _, _, hok, -⟩ := makes_iff.mp hmakes
      exact absurd (hcreate.symm.trans hok) nofun
    dsimp only
    rw [tryFinally, Effect.exec_bind, Effect.exec_tryCatch, Effect.exec_bind, exec_onBootstrap]
    dsimp only
    rcases hstamp : Effect.exec steps.stamp created with ⟨x | u, stamped⟩
    · refine .inl ⟨x, _, rfl, rfl, rfl, fun content hmakes => ?_⟩
      obtain ⟨-, _, _, hcreate', hok, -⟩ := makes_iff.mp hmakes
      cases hcreate.symm.trans hcreate'
      exact absurd (hstamp.symm.trans hok) nofun
    dsimp only
    rw [Effect.exec_bind, exec_onBootstrap]
    dsimp only
    rcases hupgrade : Effect.exec steps.upgrade stamped with ⟨x | u, upgraded⟩
    · refine .inl ⟨x, _, rfl, rfl, rfl, fun content hmakes => ?_⟩
      obtain ⟨-, _, _, hcreate', hstamp', hok⟩ := makes_iff.mp hmakes
      cases hcreate.symm.trans hcreate'
      cases hstamp.symm.trans hstamp'
      exact absurd (hupgrade.symm.trans hok) nofun
    cases upgraded with
    | none =>
      refine .inl ⟨fileNotFound, _, rfl, rfl, rfl, fun content hmakes => ?_⟩
      obtain ⟨-, _, _, hcreate', hstamp', hok⟩ := makes_iff.mp hmakes
      cases hcreate.symm.trans hcreate'
      cases hstamp.symm.trans hstamp'
      exact absurd (hupgrade.symm.trans hok) nofun
    | some content =>
      exact .inr ⟨content, makes_iff.mpr ⟨himports, created, stamped, hcreate, hstamp, hupgrade⟩,
        rfl⟩

/-- The end of a migration whose step has returned. -/
def finished (reader : FileReader C) (versions : SchemaVersions)
    (previous backupChecksum : Option String) (files : MigrationFiles C) :
    Except Raised MigrationResult × MigrationFiles C :=
  let current := revision reader files
  if current = some versions.databaseSchemaCurrent then
    (.ok ⟨.completed, previous, current, backupChecksum⟩, files)
  else (.error (unexpectedRevision current), files)

/-- Once the step has returned, only the revision is looked at. -/
theorem exec_migrateFrom_of_ok {previous backupChecksum : Option String}
    {files' : MigrationFiles C}
    (h : Effect.exec (step steps previous)
      { files with marker := some MigrationStatus.running.value } = (.ok (), files')) :
    Effect.exec (migrateFrom reader versions steps previous backupChecksum) files =
      finished reader versions previous backupChecksum { files' with marker := none } := by
  have hguarded : Effect.exec (guarded steps previous)
      { files with marker := some MigrationStatus.running.value } = (.ok (), files') := by
    rw [guarded, Effect.exec_tryCatch, h]
  rw [migrateFrom, Effect.exec_modify_bind, Effect.exec_bind_of_ok hguarded,
    Effect.exec_modify_bind, Effect.exec_get_bind, finished]
  dsimp only
  split_ifs
  · rfl
  · rfl

/-- A new file is left at its revision, or not at all. -/
theorem exec_migrateFrom_new (reader : FileReader C) (versions : SchemaVersions)
    (steps : MigrationSteps C) (backupChecksum : Option String) (hnone : files.database = none) :
    (∃ x files', Effect.exec (migrateFrom reader versions steps none backupChecksum) files =
        (.error x, files') ∧ files'.database = none ∧ files'.marker.isSome ∧
        ∀ content, ¬ Makes steps content) ∨
      ∃ content files', Makes steps content ∧ files'.database = some content ∧
        files'.marker = none ∧
        Effect.exec (migrateFrom reader versions steps none backupChecksum) files =
          finished reader versions none backupChecksum files' := by
  rcases bootstrap_cases steps { files with marker := some MigrationStatus.running.value } with
    ⟨x, files', hexec, hdatabase, hmarker, hnot⟩ | ⟨content, hmakes, hexec⟩
  · left
    have hguarded : ∃ x' files'', Effect.exec (guarded steps none)
        { files with marker := some MigrationStatus.running.value } = (.error x', files'') ∧
          files''.database = none ∧ files''.marker.isSome := by
      rw [guarded, Effect.exec_tryCatch, step, hexec]
      cases x with
      | exception x => exact ⟨_, _, rfl, hdatabase.trans hnone, rfl⟩
      | interrupt name => exact ⟨_, _, rfl, hdatabase.trans hnone, by rw [hmarker]; rfl⟩
    obtain ⟨x', files'', hguarded, hkept, hmarked⟩ := hguarded
    refine ⟨x', files'', ?_, hkept, hmarked, hnot⟩
    rw [migrateFrom, Effect.exec_modify_bind, Effect.exec_bind, hguarded]
  · right
    have hstep : Effect.exec (step steps none)
        { files with marker := some MigrationStatus.running.value } = _ := hexec
    exact ⟨content, _, hmakes, rfl, rfl, exec_migrateFrom_of_ok hstep⟩

/-- The database after an upgrade that raised and left the file so, where its backup is `content`. -/
def leftBehind (content : C) : Raised → Option C → Option C
  | .exception _, none => none
  | .exception _, some _ => some content
  | .interrupt _, file => file

/-- What an upgrade in place leaves, where its backup was taken. -/
theorem exec_migrateFrom_old (reader : FileReader C) (versions : SchemaVersions)
    (steps : MigrationSteps C) (previous : String) (backupChecksum : Option String) {content : C}
    (hdatabase : files.database = some content) (hbackup : files.backup = some content) :
    (∃ file, Effect.exec steps.upgrade (some content) = (.ok (), file) ∧
        ∃ files', files'.database = file ∧ files'.marker = none ∧
          Effect.exec (migrateFrom reader versions steps (some previous) backupChecksum) files =
            finished reader versions (some previous) backupChecksum files') ∨
      ∃ x file, Effect.exec steps.upgrade (some content) = (.error x, file) ∧
        ∃ x' files', files'.marker.isSome ∧ files'.database = leftBehind content x file ∧
          Effect.exec (migrateFrom reader versions steps (some previous) backupChecksum) files =
            (.error x', files') := by
  have hstep : Effect.exec (step steps (some previous))
      { files with marker := some MigrationStatus.running.value } =
        ((Effect.exec steps.upgrade (some content)).1,
          { files with
            marker := some MigrationStatus.running.value
            database := (Effect.exec steps.upgrade (some content)).2 }) := by
    rw [step, exec_onDatabase, hdatabase]
  rcases hupgrade : Effect.exec steps.upgrade (some content) with ⟨x | u, file⟩
  · right
    rw [hupgrade] at hstep
    refine ⟨x, file, rfl, ?_⟩
    have hguarded : ∃ x' files', Effect.exec (guarded steps (some previous))
        { files with marker := some MigrationStatus.running.value } = (.error x', files') ∧
          files'.marker.isSome ∧ files'.database = leftBehind content x file := by
      rw [guarded, Effect.exec_tryCatch, hstep]
      cases x with
      | interrupt name => exact ⟨_, _, rfl, rfl, rfl⟩
      | exception x =>
        cases file with
        | none => exact ⟨_, _, rfl, rfl, rfl⟩
        | some content => exact ⟨_, _, rfl, rfl, hbackup⟩
    obtain ⟨x', files', hguarded, hmarker, hdatabase'⟩ := hguarded
    refine ⟨x', files', hmarker, hdatabase', ?_⟩
    rw [migrateFrom, Effect.exec_modify_bind, Effect.exec_bind, hguarded]
  · left
    rw [hupgrade] at hstep
    exact ⟨file, rfl, _, rfl, rfl, exec_migrateFrom_of_ok hstep⟩

theorem Startable.status_eq (h : Startable reader versions files) :
    status reader versions files = .required := by
  rw [status, h.unmarked, revision]
  cases hdatabase : files.database with
  | none =>
    rw [hasContent, hdatabase]
    rfl
  | some content =>
    obtain ⟨hsize, revision, hrevision, hminimum, hcurrent⟩ := h.old content hdatabase
    dsimp only
    rw [if_neg hsize, hrevision]
    dsimp only
    rw [if_pos hcurrent, if_neg hminimum]
    rfl

/-- A migration of a new file. -/
theorem exec_migrate_new (hstart : Startable reader versions files)
    (hnone : files.database = none) :
    Effect.exec (migrate reader versions steps) files =
      Effect.exec (migrateFrom reader versions steps none none) files := by
  have hrevision : revision reader files = none := by rw [revision, hnone]
  rw [migrate, Effect.exec_get_bind]
  dsimp only
  rw [hstart.status_eq, hrevision]
  rfl

/-- A migration of an old file, which starts with a backup if there is room for it. -/
theorem exec_migrate_old (hstart : Startable reader versions files) (steps : MigrationSteps C)
    {content : C} (hdatabase : files.database = some content) :
    if reader.size content * 2 ≤ steps.free then
      ∃ previous checksum files₁, reader.versionNum content = some previous ∧
        files₁.database = some content ∧ files₁.backup = some content ∧
        Effect.exec (migrate reader versions steps) files =
          Effect.exec (migrateFrom reader versions steps (some previous) checksum) files₁
    else ∃ x, Effect.exec (migrate reader versions steps) files = (.error x, files) := by
  obtain ⟨hsize, previous, hprevious, -⟩ := hstart.old content hdatabase
  have hrevision : revision reader files = some previous := by
    rw [revision, hdatabase]
    dsimp only
    rw [if_neg hsize, hprevious]
  have hmigrate : Effect.exec (migrate reader versions steps) files =
      Effect.exec (do
        let checksum ← backup reader versions steps previous
        migrateFrom reader versions steps (some previous) (some checksum)) files := by
    rw [migrate, Effect.exec_get_bind]
    dsimp only
    rw [hstart.status_eq, hrevision]
    dsimp only
    rw [if_neg nofun]
    rfl
  rw [hmigrate, Effect.exec_bind, backup, Effect.exec_get_bind, hdatabase]
  dsimp only
  split_ifs with hroom hfull hfull
  · omega
  · exact ⟨previous, some (reader.sha256 content),
      { files with
        backup := some content
        backupMetadata := some
          { createdAt := steps.now
            releaseVersion := versions.applicationVersion
            sha256 := reader.sha256 content
            sizeBytes := reader.size content
            sourceRevision := previous
            targetRevision := versions.databaseSchemaCurrent } },
      hprevious, hdatabase, rfl, rfl⟩
  · exact ⟨_, rfl⟩
  · omega

/-! ### Containment -/

theorem finished_ok {previous backupChecksum : Option String} {result : MigrationResult}
    {files' : MigrationFiles C}
    (h : finished reader versions previous backupChecksum files = (.ok result, files')) :
    revision reader files' = some versions.databaseSchemaCurrent ∧ files' = files := by
  rw [finished] at h
  split_ifs at h with hcurrent
  · cases h
    exact ⟨hcurrent, rfl⟩
  · cases h

theorem finished_error {previous backupChecksum : Option String} {x : Raised}
    {files' : MigrationFiles C}
    (h : finished reader versions previous backupChecksum files = (.error x, files')) :
    revision reader files' ≠ some versions.databaseSchemaCurrent ∧ files' = files := by
  rw [finished] at h
  split_ifs at h with hcurrent
  · cases h
  · cases h
    exact ⟨hcurrent, rfl⟩

/-- Whatever it does, a migration that returns has the current revision and no marker. -/
theorem migrate_returned (hstart : Startable reader versions files) {result : MigrationResult}
    {files' : MigrationFiles C}
    (h : Effect.exec (migrate reader versions steps) files = (.ok result, files')) :
    revision reader files' = some versions.databaseSchemaCurrent ∧ files'.marker = none := by
  cases hdatabase : files.database with
  | none =>
    rw [exec_migrate_new hstart hdatabase] at h
    rcases exec_migrateFrom_new reader versions steps none hdatabase with ⟨x, _, hexec, -⟩ |
      ⟨content, left, -, -, hmarker, hexec⟩
    · exact absurd (hexec.symm.trans h) nofun
    · obtain ⟨hrevision, rfl⟩ := finished_ok (hexec.symm.trans h)
      exact ⟨hrevision, hmarker⟩
  | some content =>
    have hold := exec_migrate_old hstart steps hdatabase
    split_ifs at hold with hroom
    · obtain ⟨previous, checksum, files₁, -, hdatabase₁, hbackup₁, hexec⟩ := hold
      rw [hexec] at h
      rcases exec_migrateFrom_old reader versions steps previous checksum hdatabase₁ hbackup₁ with
        ⟨file, -, left, -, hmarker, hexec⟩ | ⟨x, file, -, x', left, -, -, hexec⟩
      · obtain ⟨hrevision, rfl⟩ := finished_ok (hexec.symm.trans h)
        exact ⟨hrevision, hmarker⟩
      · exact absurd (hexec.symm.trans h) nofun
    · obtain ⟨x, hexec⟩ := hold
      exact absurd (hexec.symm.trans h) nofun

/-- A migration whose step returned is contained exactly if it ends at the current revision: the
database as it was, without a marker, does not call for recovery. -/
theorem contained_finished_iff (hstart : Startable reader versions files)
    (hroom : Roomy reader steps files) {previous backupChecksum : Option String}
    {left : MigrationFiles C} (hmarker : left.marker = none)
    (hexec : Effect.exec (migrate reader versions steps) files =
      finished reader versions previous backupChecksum left) :
    Contained reader versions steps files ↔
      revisionOf reader left.database = some versions.databaseSchemaCurrent := by
  constructor
  · intro hcontained
    by_contra hother
    rw [← revision_eq_revisionOf] at hother
    rw [finished, if_neg hother] at hexec
    obtain ⟨hkept, hrecovery⟩ := hcontained.raised _ _ hexec hroom
    have hleft : Startable reader versions left :=
      ⟨hmarker, fun content h => hstart.old content (hkept ▸ h)⟩
    exact absurd (hleft.status_eq.symm.trans hrecovery) nofun
  · intro hcurrent
    refine ⟨fun x files' hraised _ => ?_, fun result files' => migrate_returned hstart⟩
    obtain ⟨hother, rfl⟩ := finished_error (hexec.symm.trans hraised)
    exact absurd hcurrent hother

/-- A migration whose step raised is marked, and contained exactly if the database is back. -/
theorem contained_raised_iff (hstart : Startable reader versions files)
    (hroom : Roomy reader steps files) {x : Raised} {left : MigrationFiles C}
    (hmarker : left.marker.isSome)
    (hexec : Effect.exec (migrate reader versions steps) files = (.error x, left)) :
    Contained reader versions steps files ↔ left.database = files.database := by
  constructor
  · exact fun hcontained => (hcontained.raised _ _ hexec hroom).1
  · intro hkept
    refine ⟨fun x files' hraised _ => ?_, fun result files' => migrate_returned hstart⟩
    cases hexec.symm.trans hraised
    exact ⟨hkept, status_of_marker hmarker⟩

/-- Exactly the harmless behaviours of the steps are contained, where there is room for the
backup. -/
theorem contained_iff (reader : FileReader C) (versions : SchemaVersions)
    (steps : MigrationSteps C) (files : MigrationFiles C)
    (hstart : Startable reader versions files) :
    Contained reader versions steps files ↔
      (Roomy reader steps files → Harmless reader versions steps files) := by
  by_cases hroom : Roomy reader steps files
  · rw [imp_iff_right hroom]
    cases hdatabase : files.database with
    | none =>
      rw [Harmless, hdatabase]
      have hmigrate : Effect.exec (migrate reader versions steps) files =
          Effect.exec (migrateFrom reader versions steps none none) files :=
        exec_migrate_new hstart hdatabase
      rcases exec_migrateFrom_new reader versions steps none hdatabase with
        ⟨x, left, hexec, hleft, hmarker, hnot⟩ | ⟨content, left, hmakes, hleft, hmarker, hexec⟩
      · rw [contained_raised_iff hstart hroom hmarker (hmigrate.trans hexec), hleft, hdatabase]
        exact iff_of_true rfl fun content hmakes => absurd hmakes (hnot content)
      · rw [contained_finished_iff hstart hroom hmarker (hmigrate.trans hexec), hleft]
        constructor
        · intro hcurrent made hmade
          cases hmakes.2.symm.trans hmade.2
          exact hcurrent
        · exact fun hall => hall content hmakes
    | some content =>
      rw [Harmless, hdatabase]
      dsimp only
      have hold := exec_migrate_old hstart steps hdatabase
      rw [if_pos (hroom content hdatabase)] at hold
      obtain ⟨previous, checksum, files₁, -, hdatabase₁, hbackup₁, hmigrate⟩ := hold
      rcases exec_migrateFrom_old reader versions steps previous checksum hdatabase₁ hbackup₁ with
        ⟨file, hupgrade, left, hleft, hmarker, hexec⟩ |
        ⟨x, file, hupgrade, x', left, hmarker, hleft, hexec⟩
      · rw [contained_finished_iff hstart hroom hmarker (hmigrate.trans hexec), hleft, hupgrade]
      · rw [contained_raised_iff hstart hroom hmarker (hmigrate.trans hexec), hleft, hupgrade,
          hdatabase]
        cases x with
        | interrupt name => exact Iff.rfl
        | exception x =>
          cases file with
          | none => exact iff_of_false nofun (not_not.mpr rfl)
          | some file => exact iff_of_true rfl nofun
  · refine iff_of_true ?_ fun h => absurd h hroom
    exact ⟨fun x files' _ h => absurd h hroom, fun result files' => migrate_returned hstart⟩

end

/-- Files that hold their revision, for small runs of the model. -/
def plainReader : FileReader String where
  size := String.length
  sha256 := id
  versionNum := some

def plainVersions : SchemaVersions where
  applicationVersion := "1.0.0"
  databaseSchemaCurrent := "0023"
  databaseSchemaMinimum := "0020"

/-- The steps whose upgrade leaves a file and ends in a certain way. -/
def plainSteps (outcome : Except Raised Unit) (file : Option String) : MigrationSteps String where
  free := 100
  now := ⟨0, some 0⟩
  importModules := .ok ()
  createAll := ExceptT.mk fun _ => (.ok (), some "")
  stamp := ExceptT.mk fun _ => (.ok (), some "0021")
  upgrade := ExceptT.mk fun _ => (outcome, file)

theorem startable_plain {content : String} (hsize : plainReader.size content ≠ 0)
    (hminimum : ¬ content < "0020") (hcurrent : content < "0023") :
    Startable plainReader plainVersions { database := some content } := by
  refine ⟨rfl, ?_⟩
  rintro _ ⟨⟩
  exact ⟨hsize, content, rfl, hminimum, hcurrent⟩

theorem contained_iff_raising :
    Contained plainReader plainVersions
        (plainSteps (.error (.exception ⟨.valueError, "failed"⟩)) (some "broken"))
        { database := some "0021" } ↔
      (Roomy plainReader
          (plainSteps (.error (.exception ⟨.valueError, "failed"⟩)) (some "broken"))
          { database := some "0021" } →
        Harmless plainReader plainVersions
          (plainSteps (.error (.exception ⟨.valueError, "failed"⟩)) (some "broken"))
          { database := some "0021" }) :=
  contained_iff plainReader plainVersions _ _
    (startable_plain (by decide) (by decide) (by decide))

/-- An upgrade that stops one revision early is left in place, and the marker is gone. -/
theorem not_contained_early :
    ¬ ∀ (reader : FileReader String) (versions : SchemaVersions) (steps : MigrationSteps String)
      (files : MigrationFiles String), Startable reader versions files →
        Contained reader versions steps files := by
  intro hall
  have hcontained := hall plainReader plainVersions (plainSteps (.ok ()) (some "0022"))
    { database := some "0021" } (startable_plain (by decide) (by decide) (by decide))
  have hroom : Roomy plainReader (plainSteps (.ok ()) (some "0022")) { database := some "0021" } := by
    rintro _ ⟨⟩
    decide
  obtain ⟨hkept, -⟩ := hcontained.raised _ _ rfl hroom
  exact absurd (Option.some.inj hkept) (by decide)

end MigrationManager
end OptionResearch
