import Cinder.Backups.BackupStaging
import Cinder.HostApp.ServerTasks
set_option autoImplicit false

/-!
How a backup takes the place of a school's data: it is staged beside the live
folder, the live data goes into a safety backup, and two renames swap the folders.
-/

namespace Cinder.Backups
open Cinder.Host Cinder.HostApp Cinder.Programs

/-- The folders that stand beside each other. The staged one and the one to roll
back to have random names. -/
inductive FolderPlace where
  | live | stage | rollback
  deriving DecidableEq, Repr

structure SchoolFolders where
  folder : FolderPlace → Option Folder
  archives : List (String × Folder)

namespace SchoolFolders

def put (s : SchoolFolders) (place : FolderPlace) (folder : Option Folder) : SchoolFolders :=
  { s with folder := Function.update s.folder place folder }

variable (s : SchoolFolders) (place : FolderPlace) (folder : Option Folder)

@[simp] theorem put_self : (s.put place folder).folder place = folder := by simp [put]

@[simp] theorem put_archives : (s.put place folder).archives = s.archives := rfl

theorem put_of_ne {other : FolderPlace} (h : other ≠ place) :
    (s.put place folder).folder other = s.folder other := by simp [put, h]

@[simp] theorem put_stage_live : (s.put .stage folder).folder .live = s.folder .live :=
  s.put_of_ne _ _ (by decide)

@[simp] theorem put_rollback_live : (s.put .rollback folder).folder .live = s.folder .live :=
  s.put_of_ne _ _ (by decide)

@[simp] theorem put_live_stage : (s.put .live folder).folder .stage = s.folder .stage :=
  s.put_of_ne _ _ (by decide)

@[simp] theorem put_rollback_stage : (s.put .rollback folder).folder .stage = s.folder .stage :=
  s.put_of_ne _ _ (by decide)

@[simp] theorem put_live_rollback : (s.put .live folder).folder .rollback = s.folder .rollback :=
  s.put_of_ne _ _ (by decide)

@[simp] theorem put_stage_rollback : (s.put .stage folder).folder .rollback = s.folder .rollback :=
  s.put_of_ne _ _ (by decide)

end SchoolFolders

abbrev FolderCommand (α : Type) := Command SchoolFolders String α

inductive RestoreStep where
  | openStaged | renameLive | renameStaged | renameBack
  deriving DecidableEq, Repr

/-- What a restore meets. A connection that fails may have made its file before,
and a folder that cannot be removed leaves something behind. -/
structure RestoreRun where
  run : Run
  fails : RestoreStep → Option String
  folderAt : String → Folder
  parent : String → Option String
  auditedAt : String
  makesDatabase : Bool
  leftStage : Option Folder
  leftRollback : Option Folder

/-- A connection makes the database file where there is none. -/
def Folder.opened (folder : Folder) : Folder :=
  { folder with database := some (folder.database.getD []) }

theorem Folder.opened_eq {folder : Folder} : folder.opened = folder ↔ folder.database ≠ none := by
  rcases folder with ⟨manifest, _ | database, blobs⟩ <;> simp [opened]

def noParent : String := "School data folder has no parent."

section Restoring
variable {Other : Type} (lib : Libraries Other) (env : Surroundings) (r : RestoreRun)

def stageHere (backup : Folder) (secret : String) : FolderCommand Unit :=
  match stageBackup lib r.run backup secret with
  | .ok staged => Command.modify fun s => s.put .stage (some staged)
  | .error e => do
    Command.modify fun s => s.put .stage r.leftStage
    Command.fail e

/-- `create_backup` comes to open the live database. -/
def opensLive (config : HostConfig) (parent : String) : Bool :=
  (r.run.fails .createParent).isNone && (r.run.fails .canonicalizeLive).isNone &&
    (r.run.fails .canonicalizeParent).isNone &&
    !decide (r.run.canonicalize config.dataDir <+: r.run.canonicalize parent) &&
    (r.run.fails .createDestination).isNone && (r.run.fails .scratch).isNone &&
    ((r.run.fails .openLive).isNone || r.makesDatabase)

/-- `create_backup` of the folder that is live. -/
def createBackupHere (config : HostConfig) (parent : String) (key : BackupKey)
    (encryption : BackupEncryption) : FolderCommand String := do
  let s ← Command.get
  match s.folder .live with
  | none => do
    Command.attempt (r.run.fails .createParent)
    Command.fail r.run.ioError
  | some live => do
    Command.modify fun s => if opensLive r config parent then s.put .live (some live.opened) else s
    let (name, archive) ← Command.ofExcept
      (createBackup lib r.run config parent live key encryption)
    Command.modify fun s => { s with archives := s.archives ++ [(name, archive)] }
    pure name

def orRemoveStage {α : Type} (p : FolderCommand α) : FolderCommand α := do
  let result ← p.outcome
  match result with
  | .ok a => pure a
  | .error e => do
    Command.modify fun s => s.put .stage r.leftStage
    Command.fail e

def auditStaged (backup : String) : FolderCommand Unit := do
  Command.attempt (r.fails .openStaged)
  let s ← Command.get
  let staged := (s.folder .stage).getD ⟨none, none, []⟩
  let database ← Command.ofExcept
    (lib.insertAudit ⟨"school.restore", some "backup", none, backup, r.auditedAt⟩
      (staged.database.getD []))
  Command.modify fun s => s.put .stage (some { staged with database := some database })

/-- `fs::rename` of a whole folder. -/
def renameFolder (step : RestoreStep) (context : String) (src dst : FolderPlace) : FolderCommand Unit := do
  Command.attempt ((r.fails step).map (context ++ ·))
  let s ← Command.get
  Command.require ((s.folder src).isSome = true) (context ++ r.run.ioError)
  Command.modify fun s => (s.put dst (s.folder src)).put src none

def swapDataDirs (dataDir : String) (injectFailure : Bool) : FolderCommand Unit := do
  let _ ← Command.ofExcept (orError noParent (r.parent dataDir))
  renameFolder r .renameLive "Could not prepare school-data swap: " .live .rollback
  let install ← (if injectFailure then Command.fail "Injected install failure."
    else renameFolder r .renameStaged "Could not install staged school data: " .stage .live).outcome
  match install with
  | .error e => do
    renameFolder r .renameBack (e ++ " Automatic rollback also failed: ") .rollback .live
    Command.fail e
  | .ok _ => Command.modify fun s => s.put .rollback r.leftRollback

def secretFor (password : String) (backupPassword : Option String) : String :=
  ((backupPassword.map trim).filter (· ≠ "")).getD password

def storedKey : Except String (Option BackupKey) :=
  match env.fails .loadKey with
  | none => .ok env.storedBackupKey
  | some e => .error e

/-- The operation of `restore_school`. -/
def restoreData (password backup : String) (backupPassword : Option String) (config : HostConfig) :
    FolderCommand String := do
  Command.require (env.verifyPassword config.passwordHash password = true)
    "The Host password is incorrect."
  stageHere lib r (r.folderAt backup) (secretFor password backupPassword)
  let parent ← Command.ofExcept (orError noParent (r.parent config.dataDir))
  let (key, encryption) ← orRemoveStage r
    (Command.ofExcept (backupEncryption (storedKey env) config))
  let safety ← orRemoveStage r
    (createBackupHere lib r config (parent ++ "/Cinder recovery archives") key encryption)
  auditStaged lib r backup
  swapDataDirs r config.dataDir false
  pure safety

structure RestoringHost where
  host : HostState
  folders : SchoolFolders

def onAdmin {α : Type} (p : AdminCommand α) : Command RestoringHost String α :=
  Command.zoom RestoringHost.host (fun s host => { s with host }) p

def onFolders {α : Type} (p : FolderCommand α) : Command RestoringHost String α :=
  Command.zoom RestoringHost.folders (fun s folders => { s with folders }) p

/-- `with_maintenance` around the operation. -/
def restoreSchool (token password backup : String) (backupPassword : Option String) :
    Command RestoringHost String String := do
  onAdmin (env.inner .hostDir)
  let config ← onAdmin (enterMaintenance env token)
  let result ← (onFolders (restoreData lib env r password backup backupPassword config)).outcome
  onAdmin (endMaintenance env)
  Command.ofExcept result

end Restoring

end Cinder.Backups
