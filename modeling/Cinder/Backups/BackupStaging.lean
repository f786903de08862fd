import Cinder.Backups.BackupWriting
set_option autoImplicit false

namespace Cinder.Backups
open Cinder.Host Cinder.HostApp Cinder.Library Cinder.Materials

def plainManifest (run : Run) (time : Nat) (folder : Folder) : Except String BackupManifest := do
  run.step (.readPlain time)
  let raw ← orError run.ioError folder.manifest
  let manifest ← orError run.ioError (raw.bind BackupManifest.read)
  ensure (manifest.version.1 = 1 ∧ manifest.encryption = none ∧ manifest.database = "cinder.db" ∧
    manifest.filesDir = "files") "This is not a supported Cinder Host backup."
  pure manifest

section Staging
variable {Other : Type} (lib : Libraries Other) (run : Run)

/-- One stored file against the rows that refer to it. -/
def verifyStored (time : Nat) (folder : Folder) (total : U64) (blob : String × U64 × U64) :
    Except String U64 := do
  validateSha blob.1
  ensure (blob.2.1 = blob.2.2) ("Stored file " ++ blob.1 ++ " has conflicting sizes.")
  ensure ((run.fails (.hash time blob.1)).isNone = true)
    ("Backup is missing stored file " ++ blob.1 ++ ".")
  let content ← orError ("Backup is missing stored file " ++ blob.1 ++ ".") (folder.blob? blob.1)
  ensure (lib.sha256 content = blob.1 ∧ asU64 content.length = blob.2.2)
    ("Stored file " ++ blob.1 ++ " failed hash or size verification.")
  orError "Backup size overflowed." (checkedAdd total (asU64 content.length))

/-- `verify_backup`, of plain files. -/
def verifyBackup (time : Nat) (folder : Folder) : Except String BackupManifest := do
  let manifest ← plainManifest run time folder
  run.step (.openPlain time)
  let check ← lib.integrityCheck (folder.database.getD [])
  ensure (check = "ok") ("Backup database failed integrity check: " ++ check)
  let db ← lib.readDatabase (folder.database.getD [])
  let fileCount ← countFiles db.files
  ensure (fileCount = manifest.fileCount) "Backup file count does not match its manifest."
  let blobs ← storedBlobsMinMax db.files
  ensure (asU64 blobs.length = manifest.blobCount) "Backup blob count does not match its manifest."
  let total ← blobs.foldlM (verifyStored lib run time folder) ⟨0, u64_pos⟩
  ensure (total = manifest.totalBytes) "Backup byte total does not match its manifest."
  pure manifest

/-- The end of a staging: nobody stays signed in, and the manifest goes. -/
def finishStage (folder : Folder) : Except String Folder := do
  run.step .openStaged
  let database ← lib.deleteSessions (folder.database.getD [])
  run.step .removeManifest
  pure ⟨none, some database, folder.blobs⟩

/-- `decrypt_file` of a file that may be missing. -/
def decryptFrom (key : BackupKey) (label : String) (source : Option Bytes) : Except String Bytes := do
  run.step (.decrypt 1 label)
  let source ← orError (damaged label) source
  decryptFile lib.cipher key label (run.short 2 label) source

def stageBlob (key : BackupKey) (staged : List BlobFile) (blob : BlobFile) :
    Except String (List BlobFile) := do
  run.step (.createFolder (labelOf blob.path))
  let content ← decryptFrom lib run key (labelOf blob.path) (some blob.content)
  pure (putBlob staged blob.path content)

/-- What the backup holds, in plain. -/
def fillStage (backup : Folder) (manifest : BackupManifest) (key : BackupKey) :
    Except String Folder := do
  let database ← decryptFrom lib run key "cinder.db" backup.database
  run.step .createFiles
  let found ← backupBlobFiles run 1 backup
  let blobs ← found.foldlM (stageBlob lib run key) []
  let plain : BackupManifest :=
    { manifest with version := ⟨1, by decide⟩, databaseSha256 := none, encryption := none }
  run.step .serialise
  run.step .writeManifest
  let folder : Folder := ⟨some (some plain.json), some database, blobs⟩
  let _ ← verifyBackup lib run 1 folder
  finishStage lib run folder

def createStage : Except String Unit := do
  run.step .dataParent
  run.step .createStage

def stageEncrypted (backup : Folder) (manifest : BackupManifest) (encryption : BackupEncryption)
    (secret : String) : Except String Folder := do
  ensure (encryption.cipher = cipherName) "This backup was made by a newer Cinder Host."
  let key ← orError "This backup is locked with a different password. Enter the Host password or recovery code the school had when the backup was made."
    (encryption.unlock lib.unwrap secret)
  verifyEncrypted lib run backup manifest key
  createStage run
  fillStage lib run backup manifest key

/-- `copy_tree` into a folder that is new copies everything. -/
def stagePlainBackup (backup : Folder) : Except String Folder := do
  run.step .canonicalizeBackup
  let _ ← verifyBackup lib run 0 backup
  createStage run
  run.step .copyDatabase
  run.step .copyFiles
  run.step .copyManifest
  let _ ← verifyBackup lib run 1 backup
  finishStage lib run backup

/-- The folder beside the live data. After an error it is removed. -/
def stageBackup (backup : Folder) (secret : String) : Except String Folder := do
  run.step .canonicalizeBackup
  let manifest ← readManifest run backup
  match manifest.encryption with
  | none => stagePlainBackup lib run backup
  | some encryption => stageEncrypted lib run backup manifest encryption secret

end Staging

end Cinder.Backups
