import Cinder.Backups.BackupCrypto
import Cinder.Backups.BackupManifests
import Cinder.Materials.MaterialStore
set_option autoImplicit false

/-!
How a backup is written: a copy of the database and the blob files that it
refers to, each encrypted, and a manifest. It is read back before it counts.
-/

namespace Cinder.Backups
open Cinder.Host Cinder.HostApp Cinder.Library Cinder.Materials Cinder.Streams

structure AuditEntry where
  action : String
  targetType : Option String
  targetId : Option String
  detail : String
  createdAt : String
  deriving DecidableEq, Repr

/-- The database of a school. `other` are the tables that no function here looks
at. -/
structure SchoolDatabase (Other : Type) where
  lib : LibraryTables
  settings : List (String × String)
  operatorAudit : List AuditEntry
  other : Other

def SchoolDatabase.files {Other : Type} (db : SchoolDatabase Other) : List FileRow :=
  db.lib.files.rows

/-- `DELETE FROM sessions`. -/
def SchoolDatabase.withoutSessions {Other : Type} (db : SchoolDatabase Other) :
    SchoolDatabase Other :=
  { db with lib := { db.lib with school := { db.lib.school with sessions := .empty } } }

/-- A file at `files/<shard>/<name>`. -/
structure BlobFile where
  path : BlobPath
  content : Bytes
  deriving DecidableEq, Repr

/-- A backup, or the data of a school: the manifest, `cinder.db` and `files`. A
manifest that is there but is no JSON text has no value. -/
structure Folder where
  manifest : Option (Option Json)
  database : Option Bytes
  blobs : List BlobFile
  deriving DecidableEq, Repr

def Folder.blob? (folder : Folder) (sha : String) : Option Bytes :=
  (folder.blobs.find? fun b => b.path = blobPath sha).map (·.content)

def putBlob (blobs : List BlobFile) (path : BlobPath) (content : Bytes) : List BlobFile :=
  blobs.filter (fun b => b.path ≠ path) ++ [⟨path, content⟩]

/-- What the code uses from libraries. -/
structure Libraries (Other : Type) where
  cipher : Cipher BackupKey String UInt8
  sha256 : Bytes → String
  unwrap : KeyWrap → String → Option BackupKey
  readDatabase : Bytes → Except String (SchoolDatabase Other)
  integrityCheck : Bytes → Except String String
  copyDatabase : Bytes → Except String Bytes
  deleteSessions : Bytes → Except String Bytes
  insertAudit : AuditEntry → Bytes → Except String Bytes

inductive BackupStep where
  | createParent | canonicalizeLive | canonicalizeParent | createDestination
  | scratch | openLive | openSnapshot
  | createFolder (label : String)
  | encrypt (label : String)
  | serialise | writeManifest
  | list (time : Nat)
  | decrypt (time : Nat) (label : String)
  | canonicalizeBackup | readManifest
  | dataParent | createStage | createFiles
  | copyDatabase | copyFiles | copyManifest
  | readPlain (time : Nat)
  | openPlain (time : Nat)
  | hash (time : Nat) (sha : String)
  | openStaged | removeManifest
  deriving DecidableEq, Repr

/-- What one run of the code meets: which steps fail and with what text, the
random bytes, the sizes of the reads and the orders in which folders are listed. -/
structure Run where
  fails : BackupStep → Option String
  ioError : String
  now : String
  name : String
  canonicalize : String → List String
  pre : String → {pre : Bytes // pre.length = prefixSize}
  short : Nat → String → Nat → Nat
  order : Nat → List BlobFile → List BlobFile

def Run.step (run : Run) (step : BackupStep) : Except String Unit :=
  match run.fails step with
  | none => .ok ()
  | some e => .error e

def ensure (c : Prop) [Decidable c] (e : String) : Except String Unit :=
  if c then .ok () else .error e

def orError {α : Type} (e : String) : Option α → Except String α
  | none => .error e
  | some a => .ok a

@[simp] theorem ensure_eq_ok {c : Prop} [Decidable c] {e : String} {u : Unit} :
    ensure c e = .ok u ↔ c := by
  by_cases h : c <;> simp [ensure, h]

@[simp] theorem orError_eq_ok {α : Type} {e : String} {o : Option α} {a : α} :
    orError e o = .ok a ↔ o = some a := by
  cases o <;> simp [orError]

theorem Run.step_eq_ok {run : Run} {step : BackupStep} {u : Unit} :
    run.step step = .ok u ↔ run.fails step = none := by
  unfold Run.step
  cases run.fails step <;> simp

def cipherName : String := "aes-256-gcm-stream-64k"

def validSha (sha : String) : Bool :=
  sha.utf8ByteSize = 64 &&
    sha.toList.all fun c => ('0' ≤ c && c ≤ '9') || ('a' ≤ c && c ≤ 'f')

def validateSha (sha : String) : Except String Unit :=
  ensure (validSha sha = true) "The backup contains an invalid stored-file hash."

def labelOf (path : BlobPath) : String := "files/" ++ path.1 ++ "/" ++ path.2

section Queries
variable (files : List FileRow)

def sizesOf (sha : String) : List Int := (files.filter fun f => f.sha256 = sha).map (·.bytes)

def digests : List String := (files.map (·.sha256)).dedup

/-- `SELECT sha256, max(bytes) FROM files GROUP BY sha256`. -/
def storedBlobs : Except String (List (String × U64)) :=
  (digests files).mapM fun sha => do
    let bytes ← readU64 ((sizesOf files sha).max?.getD 0)
    pure (sha, bytes)

/-- `SELECT sha256, min(bytes), max(bytes) FROM files GROUP BY sha256`. -/
def storedBlobsMinMax : Except String (List (String × U64 × U64)) :=
  (digests files).mapM fun sha => do
    let minimum ← readU64 ((sizesOf files sha).min?.getD 0)
    let maximum ← readU64 ((sizesOf files sha).max?.getD 0)
    pure (sha, minimum, maximum)

/-- `SELECT count(*) FROM files`. -/
def countFiles : Except String U64 := readU64 files.length

end Queries

def readManifest (run : Run) (folder : Folder) : Except String BackupManifest := do
  run.step .readManifest
  let raw ← orError run.ioError folder.manifest
  orError "This is not a supported Cinder Host backup." (raw.bind BackupManifest.read)

section Writing
variable {Other : Type} (lib : Libraries Other) (run : Run)

/-- `encrypt_file` from a file that may be missing. -/
def encryptFrom (key : BackupKey) (label : String) (source : Option Bytes) :
    Except String (Bytes × String × Nat) := do
  run.step (.encrypt label)
  let source ← orError ("Encrypting " ++ label ++ " failed: " ++ run.ioError) source
  encryptFile lib.cipher key label lib.sha256 (run.short 0 label) (run.pre label).1 source

/-- `decrypted_sha` of a file that may be missing. -/
def decryptedShaOf (time : Nat) (key : BackupKey) (label : String) (source : Option Bytes) :
    Except String (String × Nat) := do
  ensure ((run.fails (.decrypt time label)).isNone = true) (damaged label)
  let source ← orError (damaged label) source
  decryptedSha lib.cipher key label lib.sha256 (run.short (time+1) label) source

def checkBlobFile (blob : BlobFile) : Except String Unit := do
  validateSha blob.path.2
  ensure ((blobPath blob.path.2).1 = blob.path.1)
    ("Stored file " ++ blob.path.2 ++ " is in the wrong folder.")

/-- `backup_blob_files`: every stored file, in the order in which it is met. -/
def backupBlobFiles (time : Nat) (folder : Folder) : Except String (List BlobFile) := do
  run.step (.list time)
  (run.order time folder.blobs).forM checkBlobFile
  pure (run.order time folder.blobs)

def verifyBlobFile (key : BackupKey) (total : U64) (blob : BlobFile) : Except String U64 := do
  let label := labelOf blob.path
  let (sha, size) ← decryptedShaOf lib run 0 key label (some blob.content)
  ensure (sha.toList.isSuffixOf label.toList = true) (label ++ " failed its hash check.")
  orError "Backup size overflowed." (checkedAdd total (asU64 size))

def verifyEncrypted (folder : Folder) (manifest : BackupManifest) (key : BackupKey) :
    Except String Unit := do
  let expected ← orError "This backup has no database checksum." manifest.databaseSha256
  let (actual, _) ← decryptedShaOf lib run 0 key "cinder.db" folder.database
  ensure (actual = expected) "The backed-up database does not match its manifest."
  let blobs ← backupBlobFiles run 0 folder
  let total ← blobs.foldlM (verifyBlobFile lib run key) ⟨0, u64_pos⟩
  ensure (asU64 blobs.length = manifest.blobCount ∧ total = manifest.totalBytes)
    "The backup's files do not match its manifest."

/-- One stored file on its way into the backup. -/
def writeBlob (key : BackupKey) (live : Folder) (written : List BlobFile × U64)
    (blob : String × U64) : Except String (List BlobFile × U64) := do
  validateSha blob.1
  let label := labelOf (blobPath blob.1)
  run.step (.createFolder label)
  let (content, actual, size) ← encryptFrom lib run key label (live.blob? blob.1)
  ensure (actual = blob.1 ∧ asU64 size = blob.2)
    ("Stored file " ++ blob.1 ++ " failed its hash or size check.")
  let total ← orError "Backup size overflowed." (checkedAdd written.2 (asU64 size))
  pure (putBlob written.1 (blobPath blob.1) content, total)

/-- The copy of the database, which has to be whole. -/
def snapshot (live : Folder) : Except String (Bytes × SchoolDatabase Other) := do
  run.step .scratch
  run.step .openLive
  let copy ← lib.copyDatabase (live.database.getD [])
  run.step .openSnapshot
  let check ← lib.integrityCheck copy
  ensure (check = "ok") ("The school database failed its integrity check: " ++ check)
  let db ← lib.readDatabase copy
  pure (copy, db)

def newManifest (schoolName databaseSha : String) (fileCount total : U64) (blobs : Nat)
    (encryption : BackupEncryption) : BackupManifest :=
  ⟨⟨2, by decide⟩, schoolName, run.now, "cinder.db", "files", fileCount, asU64 blobs, total,
    some databaseSha, some encryption⟩

def writeEncryptedBackup (config : HostConfig) (live : Folder) (key : BackupKey)
    (encryption : BackupEncryption) : Except String Folder := do
  let (copy, db) ← snapshot lib run live
  let fileCount ← countFiles db.files
  let blobs ← storedBlobs db.files
  let (database, databaseSha, _) ← encryptFrom lib run key "cinder.db" (some copy)
  let (written, total) ← blobs.foldlM (writeBlob lib run key live) ([], ⟨0, u64_pos⟩)
  let manifest := newManifest run config.schoolName databaseSha fileCount total blobs.length encryption
  run.step .serialise
  run.step .writeManifest
  let folder : Folder := ⟨some (some manifest.json), some database, written⟩
  verifyEncrypted lib run folder manifest key
  pure folder

/-- The new folder, with the name that it gets. It is removed again after an error. -/
def createBackup (config : HostConfig) (parent : String) (live : Folder) (key : BackupKey)
    (encryption : BackupEncryption) : Except String (String × Folder) := do
  run.step .createParent
  run.step .canonicalizeLive
  run.step .canonicalizeParent
  ensure (¬ run.canonicalize config.dataDir <+: run.canonicalize parent)
    "Choose a backup folder outside the live school-data folder."
  run.step .createDestination
  let folder ← writeEncryptedBackup lib run config live key encryption
  pure (run.name, folder)

end Writing

def backupKeyNotReady : String :=
  "Unlock Cinder Host with its password once so it can prepare encrypted backups."

/-- `backup_encryption`: what is kept in the secret store, and the locked copies
in the settings. -/
def backupEncryption (stored : Except String (Option BackupKey)) (config : HostConfig) :
    Except String (BackupKey × BackupEncryption) := do
  let stored ← stored
  let key ← orError backupKeyNotReady stored
  ensure (config.backupPasswordWrap ≠ none ∨ config.backupRecoveryWrap ≠ none) backupKeyNotReady
  pure (key, ⟨cipherName, config.backupPasswordWrap, config.backupRecoveryWrap⟩)

end Cinder.Backups
