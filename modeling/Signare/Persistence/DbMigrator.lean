import Mathlib.Data.List.Basic
import Mathlib.Logic.Function.Basic
import Signare.Lib.Stateful

/-!
# The database migrator

Every step of a migration marks the version record as dirty, runs a script outside any transaction,
and marks the record as clean. The scripts are files that are open: reading one leaves it at its
end.
-/

namespace Signare.DbMigrator

structure MigrationVersion where
  version : Int
  dirty : Bool
  description : String
  deriving DecidableEq, Inhabited

/-- The version tables by name, `none` while a table does not exist, and the rest of the schema. -/
structure Database (Schema : Type) where
  tables : String → Option (List MigrationVersion)
  schema : Schema

/-- The process and its database. Files are open under their index. The migrator keeps the name of
the version table and the last connection between calls. The last two fields are a log. -/
structure World (Schema : Type) where
  database : Database Schema
  opened : List String := []
  connected : Bool := false
  migrationsTable : String := ""
  visited : List (Database Schema) := []
  executed : List String := []

inductive Failure
  | error (message : String)
  | panic
  deriving DecidableEq

abbrev Migrating (Schema : Type) := EStateM Failure (World Schema)

variable {Schema : Type}

def World.goTo (w : World Schema) (database : Database Schema) : World Schema :=
  { w with database, visited := w.visited ++ [database] }

def World.read (w : World Schema) (file : Nat) : World Schema :=
  { w with opened := w.opened.set file "" }

def World.execute (w : World Schema) (migration : String) : World Schema :=
  { w with executed := w.executed ++ [migration] }

def goTo (database : Database Schema) : Migrating Schema Unit :=
  modify (World.goTo · database)

def failOn (fault : Option String) : Migrating Schema Unit :=
  match fault with
  | none => pure ()
  | some message => throw (.error message)

def openConnection (fault : Option String) : Migrating Schema Unit := do
  failOn fault
  modify fun w => { w with connected := true }

/-- The connection that is closed may be that of an earlier call. Its own error is only printed. -/
def closeConnection : Migrating Schema Unit := do
  if ¬ (← get).connected then throw .panic

def requireConnection : Migrating Schema Unit := do
  if ¬ (← get).connected then throw (.error "you must first open a connection to a db")

def defaultMigrationsTable : String := "signare_migrations"

def migrationsTableName : Option String → String
  | none => defaultMigrationsTable
  | some tablePrefix => tablePrefix ++ "_" ++ defaultMigrationsTable

/-- `CREATE TABLE IF NOT EXISTS`. -/
def Database.ensureMigrationTables (database : Database Schema) (table : String) :
    Database Schema :=
  match database.tables table with
  | none => { database with tables := Function.update database.tables table (some []) }
  | some _ => database

def initMigration (fault : Option String) (migrationsTablePrefix : Option String) :
    Migrating Schema Unit := do
  requireConnection
  modify fun w => { w with migrationsTable := migrationsTableName migrationsTablePrefix }
  failOn fault
  goTo ((← get).database.ensureMigrationTables (← get).migrationsTable)

/-- The first row of the version table, and a clean version 0 where there is none. -/
def Database.recorded (database : Database Schema) (table : String) : MigrationVersion :=
  match database.tables table with
  | some (row :: _) => row
  | _ => { version := 0, dirty := false, description := "" }

def getMigrationVersion (fault : Option String) : Migrating Schema MigrationVersion := do
  requireConnection
  failOn fault
  return (← get).database.recorded (← get).migrationsTable

/-- Where the transaction that replaces the version record fails. A commit that fails may have been
made. -/
inductive RecordFault
  | begin
  | truncate
  | insert
  | commit (made : Bool)

def Database.record (database : Database Schema) (table : String) (row : MigrationVersion) :
    Database Schema :=
  { database with tables := Function.update database.tables table (some [row]) }

def setMigrationVersion (fault : Option (RecordFault × String)) (row : MigrationVersion) :
    Migrating Schema Unit := do
  requireConnection
  let replaced := (← get).database.record (← get).migrationsTable row
  match fault with
  | none => goTo replaced
  | some (.commit true, message) =>
    goTo replaced
    throw (.error message)
  | some (_, message) => throw (.error message)

/-- The file is read to its end. -/
def readFile (fault : Option String) (file : Nat) : Migrating Schema String := do
  match (← get).opened[file]? with
  | none => throw .panic
  | some script =>
    modify (World.read · file)
    failOn fault
    return script

/-- `exec` is what a script does to the schema. A script that fails leaves any schema. -/
def runMigration (exec : String → Schema → Schema) (fault : Option (Schema × String))
    (migration : String) : Migrating Schema Unit := do
  requireConnection
  modify (World.execute · migration)
  match fault with
  | none => goTo { (← get).database with schema := exec migration (← get).database.schema }
  | some (left, message) =>
    goTo { (← get).database with schema := left }
    throw (.error message)

structure MigrationStep where
  upFile : Nat
  downFile : Nat
  versionDescription : String

structure Migration where
  steps : List MigrationStep
  targetVersion : Int
  migrationsTablePrefix : Option String

structure StepToMigrate where
  file : Nat
  version : Int
  description : String

/-- `steps[c]`. -/
def stepAt (steps : List MigrationStep) (c : Int) : Except Failure MigrationStep :=
  match c with
  | .ofNat i => (steps[i]?.map Except.ok).getD (.error .panic)
  | .negSucc _ => .error .panic

/-- The loop upwards from `c`, over `n` versions. -/
def stepsUp (steps : List MigrationStep) : Nat → Int → Except Failure (List StepToMigrate)
  | 0, _ => return []
  | n + 1, c => do
    let currentStep ← stepAt steps c
    let later ← stepsUp steps n (c + 1)
    return { file := currentStep.upFile, version := c + 1,
             description := currentStep.versionDescription } :: later

/-- The loop downwards from `c`, over `n` versions. -/
def stepsDown (steps : List MigrationStep) : Nat → Int → Except Failure (List StepToMigrate)
  | 0, _ => return []
  | n + 1, c => do
    let currentStep ← stepAt steps (c - 1)
    let later ← stepsDown steps n (c - 1)
    return { file := currentStep.downFile, version := c - 1,
             description := currentStep.versionDescription } :: later

def higherThanSteps (targetVersion : Int) (steps : List MigrationStep) : Failure :=
  .error <| s!"target version is higher [{targetVersion}] than the available number of steps " ++
    s!"[{steps.length}]"

def lowerThanZero (targetVersion : Int) : Failure :=
  .error s!"target version is lower [{targetVersion}] than zero"

def mapMigrationsUp (currentVersion targetVersion : Int) (steps : List MigrationStep) :
    Except Failure (List StepToMigrate) :=
  if targetVersion > steps.length then .error (higherThanSteps targetVersion steps)
  else stepsUp steps (targetVersion - currentVersion).toNat currentVersion

def mapMigrationsDown (currentVersion targetVersion : Int) (steps : List MigrationStep) :
    Except Failure (List StepToMigrate) :=
  if targetVersion < 0 then .error (lowerThanZero targetVersion)
  else if targetVersion > steps.length then .error (higherThanSteps targetVersion steps)
  else stepsDown steps (currentVersion - targetVersion).toNat currentVersion

/-- What fails in a step of a plan. -/
structure StepFaults (Schema : Type) where
  markDirty : Option (RecordFault × String) := none
  readFile : Option String := none
  runMigration : Option (Schema × String) := none
  markClean : Option (RecordFault × String) := none

/-- What fails in a call. -/
structure Faults (Schema : Type) where
  openConnection : Option String := none
  initMigration : Option String := none
  getMigrationVersion : Option String := none
  step : Nat → StepFaults Schema := fun _ => {}

variable (exec : String → Schema → Schema)

def migrateStep (faults : StepFaults Schema) (step : StepToMigrate) : Migrating Schema Unit := do
  let migrationVersion : MigrationVersion :=
    { version := step.version, dirty := true, description := step.description }
  setMigrationVersion faults.markDirty migrationVersion
  let script ← readFile faults.readFile step.file
  runMigration exec faults.runMigration script
  setMigrationVersion faults.markClean { migrationVersion with dirty := false }

def migrateSteps (faults : Nat → StepFaults Schema) : List StepToMigrate → Migrating Schema Unit
  | [] => pure ()
  | step :: later => do
    migrateStep exec (faults 0) step
    migrateSteps (fun k => faults (k + 1)) later

/-- The steps between the recorded version and the target. -/
def stepsToMigrate (version targetVersion : Int) (steps : List MigrationStep) :
    Except Failure (List StepToMigrate) :=
  if targetVersion > version then mapMigrationsUp version targetVersion steps
  else if targetVersion < version then mapMigrationsDown version targetVersion steps
  else return []

def dirtyError (version : Int) : Failure :=
  .error s!"migration table is dirty in version [{version}]"

/-- Between the opening of the connection and its closing. -/
def migrateConnected (faults : Faults Schema) (migration : Migration) : Migrating Schema Unit := do
  openConnection faults.openConnection
  initMigration faults.initMigration migration.migrationsTablePrefix
  let version ← getMigrationVersion faults.getMigrationVersion
  if version.dirty then throw (dirtyError version.version)
  let plan ← MonadExcept.ofExcept <|
    stepsToMigrate version.version migration.targetVersion migration.steps
  migrateSteps exec faults.step plan

/-- The connection is closed however the rest ends. -/
def migrate (faults : Faults Schema) (migration : Migration) : Migrating Schema Unit := do
  try
    migrateConnected exec faults migration
  finally
    closeConnection

structure StepConfig where
  up : String
  down : String
  versionDescription : String

/-- `fs` gives the contents of the files that can be opened. -/
structure MigrateFromFilesInput where
  fs : Option (String → Option String)
  targetVersion : Option Int
  migrationsTablePrefix : Option String

def dbSchemas : String := "include/dbschemas"

def migrationFileName : String := "db_migration_steps.yml"

def removeLeadingDashFromFilename (filename : String) : String :=
  match filename.toList with
  | '/' :: rest => String.ofList rest
  | _ => filename

def openFile (fs : String → Option String) (filename : String) : Migrating Schema Nat := do
  match fs filename with
  | none => throw .panic
  | some content =>
    let file := (← get).opened.length
    modify fun w => { w with opened := w.opened ++ [content] }
    return file

def openSteps (fs : String → Option String) :
    List StepConfig → Migrating Schema (List MigrationStep)
  | [] => return []
  | config :: later => do
    let upFile ← openFile fs (removeLeadingDashFromFilename config.up)
    let downFile ← openFile fs (removeLeadingDashFromFilename config.down)
    let steps ← openSteps fs later
    return { upFile, downFile, versionDescription := config.versionDescription } :: steps

/-- `unmarshal` reads the list of the steps. -/
def migrateFromFiles (unmarshal : String → Option (List StepConfig)) (dialectName : String)
    (faults : Faults Schema) (input : MigrateFromFilesInput) : Migrating Schema Unit := do
  match input.fs with
  | none => throw (.error "FS cannot be nil")
  | some fs =>
    match (fs (dbSchemas ++ "/" ++ dialectName ++ "/" ++ migrationFileName)).bind unmarshal with
    | none => throw .panic
    | some config =>
      let steps ← openSteps fs config
      migrate exec faults
        { steps, targetVersion := input.targetVersion.getD config.length,
          migrationsTablePrefix := input.migrationsTablePrefix }

end Signare.DbMigrator
