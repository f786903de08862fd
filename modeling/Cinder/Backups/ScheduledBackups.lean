import Cinder.Backups.SchoolRestore
import Cinder.Storage.Retention
import Mathlib.Data.Char
set_option autoImplicit false

/-!
The scheduled backup: it goes into a folder among what is there already, and the oldest
automatic backups are removed. The age of a backup is read off its name.
-/

namespace Cinder.Backups
open Cinder.Host Cinder.HostApp Cinder.Programs Cinder.Storage

/-- The name of a file or a folder. A name that is no text has raw bytes. -/
inductive OsName where
  | text (s : List Char)
  | raw (bytes : Bytes)
  deriving DecidableEq, Repr

inductive DriveItem where
  | file
  | folder (content : Folder)
  deriving DecidableEq, Repr

structure DriveEntry where
  name : OsName
  item : DriveItem
  deriving DecidableEq, Repr

instance : Keyed DriveEntry where
  clash r r' := r.name = r'.name
  refl r := by simp
  symm r r' := by simp [eq_comm]

abbrev Drive := Table DriveEntry

def autoBackupPrefix : List Char := "cinder-autobackup".toList

/-- The name of a folder that the scheduler is taken to have made: one with a manifest whose
name begins like those of automatic backups. -/
def DriveEntry.automatic? (e : DriveEntry) : Option (List Char) :=
  match e.name, e.item with
  | .text name, .folder content =>
    if content.manifest.isSome = true ∧ (autoBackupPrefix ++ ['-']).isPrefixOf name = true then
      some name
    else none
  | _, _ => none

def automaticNames (drive : Drive) : List (List Char) := drive.rows.filterMap (·.automatic?)

/-- What the pruning meets, and what a removal that fails leaves of a folder. -/
structure PruneRun where
  listFails : Option String
  removeFails : List Char → Option String
  left : List Char → DriveItem

def removeBackup (r : PruneRun) (name : List Char) : Command Drive String Unit :=
  match r.removeFails name with
  | none => Command.modify fun drive => drive.delete fun e => e.name = .text name
  | some e => do
    Command.modify fun drive => drive.put ⟨.text name, r.left name⟩
    Command.fail e

def pruneAutoBackups (r : PruneRun) (keep : Nat) : Command Drive String Unit := do
  Command.attempt r.listFails
  let drive ← Command.get
  (surplus (automaticNames drive) (max keep 1)).forM (removeBackup r)

inductive ScheduledStep where
  | readLast | recordLastAuto | recordLast | recordNoError | audit | recordError
  deriving DecidableEq, Repr

/-- What one run of the schedule meets. `now` are the readings of the clock, whatever it is set
to, and `stamp` is how a reading is written into a name. -/
structure ScheduledRun where
  run : Run
  prune : PruneRun
  live : Folder
  fails : ScheduledStep → Option String
  now : Nat → Time
  stamp : Time → List Char
  code : List Char
  rfc3339 : Time → String
  parseTime : String → Option Time
  display : List Char → String

/-- The app, the tables of the school that the schedule writes to, and the backup folder. -/
structure ScheduledHost where
  host : HostState
  settings : List (String × String)
  operatorAudit : List AuditEntry
  drive : Drive

abbrev ScheduledCommand (α : Type) := Command ScheduledHost String α

def autoBackupEvery : Int := days 1

/-- The name that `create_backup` gives to the new folder. -/
def ScheduledRun.name (r : ScheduledRun) : List Char :=
  autoBackupPrefix ++ ['-'] ++ r.stamp (r.now 1) ++ ['-'] ++ r.code

def ScheduledRun.named (r : ScheduledRun) : Run := { r.run with name := String.ofList r.name }

def forHost {α : Type} (p : AdminCommand α) : ScheduledCommand α :=
  Command.zoom ScheduledHost.host (fun s host => { s with host }) p

def forDrive {α : Type} (p : Command Drive String α) : ScheduledCommand α :=
  Command.zoom ScheduledHost.drive (fun s drive => { s with drive }) p

section Scheduled
variable {Other : Type} (lib : Libraries Other) (env : Surroundings) (r : ScheduledRun)

/-- `create_backup` comes to make its folder. -/
def makesDestination (config : HostConfig) (parent : String) : Bool :=
  (r.run.fails .createParent).isNone && (r.run.fails .canonicalizeLive).isNone &&
    (r.run.fails .canonicalizeParent).isNone &&
    !decide (r.run.canonicalize config.dataDir <+: r.run.canonicalize parent) &&
    (r.run.fails .createDestination).isNone

def isFile (drive : Drive) (name : List Char) : Bool :=
  drive.rows.any fun e => e.name = .text name && e.item = .file

/-- `create_backup` into the backup folder. A half-written backup is removed again. -/
def createAutoBackup (config : HostConfig) (parent : String) (key : BackupKey)
    (encryption : BackupEncryption) : Command Drive String (List Char) := do
  let drive ← Command.get
  Command.require (isFile drive r.name = false) r.run.ioError
  match createBackup lib r.named config parent r.live key encryption with
  | .ok (_, folder) => do
    Command.modify fun drive => drive.put ⟨.text r.name, .folder folder⟩
    pure r.name
  | .error e => do
    Command.modify fun drive => if makesDestination r config parent then
      drive.delete fun entry => entry.name = .text r.name else drive
    Command.fail e

/-- `INSERT OR REPLACE INTO school_settings`. -/
def recordSetting (step : ScheduledStep) (key value : String) : ScheduledCommand Unit := do
  Command.attempt (r.fails step)
  Command.modify fun s =>
    { s with settings := s.settings.filter (fun x => x.1 ≠ key) ++ [(key, value)] }

def auditBackup (name : List Char) : ScheduledCommand Unit := do
  Command.attempt (r.fails .audit)
  Command.modify fun s =>
    { s with operatorAudit := s.operatorAudit ++
        [⟨"backup.auto", some "backup", none, r.display name, r.rfc3339 (r.now 3)⟩] }

def isDue (last : Option String) : Bool :=
  match last.bind r.parseTime with
  | none => true
  | some at_ => autoBackupEvery ≤ r.now 0-at_

/-- The operation of `run_scheduled_backup`. -/
def scheduledBackup (config : HostConfig) : ScheduledCommand (Option (List Char)) := do
  let schedule ← Command.ofExcept (orError "No schedule." config.autoBackup)
  forHost (database env 0)
  Command.attempt (r.fails .readLast)
  let s ← Command.get
  let last := (s.settings.find? fun x => x.1 = "last_auto_backup").map (·.2)
  if isDue r last = false then pure none
  else do
    forHost (env.inner .hostDir)
    let (key, encryption) ← Command.ofExcept (backupEncryption (storedKey env) config)
    let name ← forDrive (createAutoBackup lib r config schedule.folder key encryption)
    let now := r.rfc3339 (r.now 2)
    recordSetting r .recordLastAuto "last_auto_backup" now
    recordSetting r .recordLast "last_backup" now
    recordSetting r .recordNoError "last_auto_backup_error" ""
    auditBackup r name
    forDrive (pruneAutoBackups r.prune schedule.keep)
    pure (some name)

/-- The error is recorded if the database can be opened. -/
def recordError (error : String) : ScheduledCommand Unit := do
  let opened ← (forHost (database env 1)).outcome
  match opened with
  | .error _ => pure ()
  | .ok _ => do
    let _ ← (recordSetting r .recordError "last_auto_backup_error" error).outcome
    pure ()

def runScheduledBackup : ScheduledCommand (Option (List Char)) := do
  let config ← forHost (enterScheduled env)
  match config with
  | none => pure none
  | some config => do
    let result ← (scheduledBackup lib env r config).outcome
    match result with
    | .error e => recordError env r e
    | .ok _ => pure ()
    forHost (endMaintenance env)
    Command.ofExcept result

end Scheduled

end Cinder.Backups
