import Mathlib.Data.List.Basic
import Cinder.Host.HostValues
import Cinder.Storage.FileScripts
set_option autoImplicit false

/-!
The secret store of the apps, as it is built everywhere but on Windows: values
under AES-GCM with a key in an owner-only file. All files lie in one directory.
-/

namespace Cinder.Secrets
open Cinder.Host Cinder.Storage

inductive SecureStoreError where
  | io (error : IoError)
  | invalidData
  | tooLarge
  deriving DecidableEq, Repr

abbrev Secure (α : Type) := Script String UInt8 SecureStoreError α

def portableHeader : Bytes := ("CINDER-AESGCM-V1".toList.map fun c => UInt8.ofNat c.toNat) ++ [0]

def nonceBytes : Nat := 12

def masterKeyBytes : Nat := 32

def maxSecretBytes : Nat := 256*1024

abbrev MasterKey := {key : Bytes // key.length = masterKeyBytes}

abbrev NonceBytes := {nonce : Bytes // nonce.length = nonceBytes}

/-- The name before its last dot. A dot in front of a name is part of it. -/
def fileStem (path : String) : String :=
  match path.toList.reverse.dropWhile (· ≠ '.') with
  | _ :: c :: rest => String.ofList (c :: rest).reverse
  | _ => path

def withExtension (path extension : String) : String := fileStem path ++ "." ++ extension

def temporaryPath (path : String) : String := withExtension path "secure.tmp"

def backupPath (path : String) : String := withExtension path "secure.bak"

def secretPath (name : String) : String := name ++ ".secure"

def localSecrets : String := "local-secrets.key"

def validName (name : String) : Bool :=
  name ≠ "" && name.utf8ByteSize ≤ 64 && name.toList.all fun c => c.isAlphanum || c = '-' || c = '_'

def pathExists (path : String) : Secure Bool := .op (.metadata path) fun r => .ret r.toBool

def readWithBackup (path : String) : Secure (Except IoError Bytes) := do
  match ← Script.attempt (.read path) with
  | .ok value => pure (.ok value)
  | .error primary =>
    match ← Script.attempt (.read (backupPath path)) with
    | .ok value => pure (.ok value)
    | .error _ => pure (.error primary)

/-- The first half of `write_private_atomic`. -/
def writeTemporary (temporary : String) (contents : Bytes) : Secure Unit := do
  let _ ← Script.attempt (.remove temporary)
  Script.act (.createNew temporary) .io
  Script.act (.writeAll temporary contents) .io
  Script.act (.syncAll temporary) .io

def moveAside (path backup : String) : Secure Unit := do
  if ← pathExists path then Script.act (.rename path backup) .io else pure ()

/-- The renaming, which is taken back as far as that goes when it fails. -/
def takePlace (path temporary backup : String) : Secure Unit := do
  match ← Script.attempt (.rename temporary path) with
  | .error error => do
    let _ ← Script.attempt (.rename backup path)
    Script.fail (.io error)
  | .ok _ => do
    let _ ← Script.attempt (.remove backup)
    pure ()

/-- The temporary file takes the place of the other one, which is kept as a backup meanwhile. -/
def replaceFile (path temporary backup : String) : Secure Unit := do
  let _ ← Script.attempt (.remove backup)
  moveAside path backup
  takePlace path temporary backup

def writePrivateAtomic (path : String) (contents : Bytes) : Secure Unit := do
  writeTemporary (temporaryPath path) contents
  replaceFile path (temporaryPath path) (backupPath path)

/-- `fresh` are the random bytes of a new key. -/
def createKey (path : String) (fresh : MasterKey) : Secure MasterKey := do
  writePrivateAtomic path fresh.1
  pure fresh

/-- The key in a file that could be read, which is put back in its place when
only the backup was there. -/
def keepKey (path : String) (primaryWasPresent : Bool) (bytes : Bytes) : Secure MasterKey := do
  let loadedPath := if primaryWasPresent then path else backupPath path
  Script.act (.setPermissions loadedPath) .io
  if h : bytes.length = masterKeyBytes then
    if primaryWasPresent then pure ⟨bytes, h⟩
    else do
      writePrivateAtomic path bytes
      pure ⟨bytes, h⟩
  else Script.fail .invalidData

def loadOrCreateKey (path : String) (fresh : MasterKey) : Secure MasterKey := do
  let primaryWasPresent ← pathExists path
  match ← readWithBackup path with
  | .ok bytes => keepKey path primaryWasPresent bytes
  | .error .notFound => createKey path fresh
  | .error error => Script.fail (.io error)

/-- AES-256-GCM of the library the store uses. -/
structure Gcm where
  encrypt : MasterKey → NonceBytes → Bytes → Option Bytes
  decrypt : MasterKey → NonceBytes → Bytes → Option Bytes

/-- What it encrypts it decrypts again. The tag has 16 bytes. -/
def Gcm.Lawful (gcm : Gcm) : Prop :=
  ∀ key nonce plain, plain.length ≤ maxSecretBytes → ∃ sealed,
    gcm.encrypt key nonce plain = some sealed ∧ sealed.length = plain.length+16 ∧
    gcm.decrypt key nonce sealed = some plain

section Store
variable (gcm : Gcm)

def protect (plaintext : Bytes) (nonce : NonceBytes) (fresh : MasterKey) : Secure Bytes := do
  let key ← loadOrCreateKey localSecrets fresh
  match gcm.encrypt key nonce plaintext with
  | none => Script.fail .invalidData
  | some ciphertext => pure (portableHeader ++ nonce.1 ++ ciphertext)

def decryptPayload (key : MasterKey) (payload : Bytes) : Secure Bytes :=
  if h : (payload.take nonceBytes).length = nonceBytes then
    match gcm.decrypt key ⟨payload.take nonceBytes, h⟩ (payload.drop nonceBytes) with
    | none => .fail .invalidData
    | some plaintext => .ret plaintext
  else .fail .invalidData

def unprotect (protected_ : Bytes) (fresh : MasterKey) : Secure Bytes := do
  match protected_.dropPrefix? portableHeader with
  | none => Script.fail .invalidData
  | some payload =>
    Script.require (nonceBytes < payload.length) .invalidData
    let key ← loadOrCreateKey localSecrets fresh
    decryptPayload gcm key payload

def store (name : String) (plaintext : Bytes) (nonce : NonceBytes) (fresh : MasterKey) :
    Secure Unit := do
  Script.require (validName name) .invalidData
  Script.require (plaintext.length ≤ maxSecretBytes) .tooLarge
  Script.act .createDirAll .io
  let protected_ ← protect gcm plaintext nonce fresh
  writePrivateAtomic (secretPath name) protected_

def unprotectSome (bytes : Bytes) (fresh : MasterKey) : Secure (Option Bytes) := do
  Script.require (bytes.length ≤ maxSecretBytes+4096) .tooLarge
  let plaintext ← unprotect gcm bytes fresh
  pure (some plaintext)

def load (name : String) (fresh : MasterKey) : Secure (Option Bytes) := do
  Script.require (validName name) .invalidData
  match ← readWithBackup (secretPath name) with
  | .ok bytes => unprotectSome gcm bytes fresh
  | .error .notFound => pure none
  | .error error => Script.fail (.io error)

end Store

def filesOf (path : String) : List String := [path, temporaryPath path, backupPath path]

end Cinder.Secrets
