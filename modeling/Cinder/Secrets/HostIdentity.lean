import Cinder.Programs.Commands
import Cinder.Secrets.InterruptedStores
set_option autoImplicit false

/-!
The TLS identity of the Host: a certificate in a file of its own and the private key
in the secret store, made on the first start and loaded on every later one.
-/

namespace Cinder.Secrets
open Cinder.Host Cinder.Programs Cinder.Storage

def certFile : String := "host-tls-cert.der"

def keySecret : String := "host-tls-key"

def keyPath : String := secretPath keySecret

inductive IdentityError where
  | io (error : IoError)
  | store (error : SecureStoreError)
  | generating
  | loadingCertificate
  deriving DecidableEq, Repr

inductive Stopped where
  | crash
  | error (e : IdentityError)
  deriving DecidableEq, Repr

abbrev IdentityCommand (α : Type) := Command (Disk String UInt8) Stopped α

/-- The part of a call that a script describes, with the fates of its operations. -/
def runScript {ε α : Type} (onError : ε → IdentityError) (p : Script String UInt8 ε α)
    (fates : List Fate) : IdentityCommand α := fun d =>
  (match (p.exec fates d).result with
    | none => .error .crash
    | some (.error e) => .error (.error (onError e))
    | some (.ok a) => .ok a, (p.exec fates d).disk)

structure CertAndKey where
  cert : Bytes
  key : Bytes
  deriving DecidableEq, Repr

/-- What one call meets: how its file operations go, part by part, what it generates
and the random bytes it may use. -/
structure IdentityCall where
  directory : List Fate
  loading : List Fate
  reading : List Fate
  generated : Option CertAndKey
  storing : List Fate
  writing : List Fate
  nonce : NonceBytes
  freshAtLoad : MasterKey
  freshAtStore : MasterKey

section Calls
variable (gcm : Gcm) (accepts : Bytes → Bytes → Bool) (call : IdentityCall)

/-- `identity_from`: whether rustls takes the two is the parameter. -/
def identityFrom (cert key : Bytes) : IdentityCommand CertAndKey := do
  Command.require (accepts cert key = true) (.error .loadingCertificate)
  pure ⟨cert, key⟩

/-- What is there of an identity. A certificate that cannot be read is none. -/
def findIdentity : IdentityCommand (Option Bytes × Option Bytes) := do
  runScript .io (Script.act .createDirAll id) call.directory
  let storedKey ← runScript .store (load gcm keySecret call.freshAtLoad) call.loading
  let cert ← runScript .io (Script.attempt (.read certFile)) call.reading
  pure (cert.toOption, storedKey)

def storeIdentity (pair : CertAndKey) : IdentityCommand CertAndKey := do
  runScript .store (store gcm keySecret pair.key call.nonce call.freshAtStore) call.storing
  runScript .io (Script.act (.writeAll certFile pair.cert) id) call.writing
  pure pair

def createIdentity : IdentityCommand CertAndKey :=
  match call.generated with
  | none => Command.fail (.error .generating)
  | some pair => storeIdentity gcm call pair

def identityFor : Option Bytes × Option Bytes → IdentityCommand CertAndKey
  | (some cert, some key) => pure ⟨cert, key⟩
  | _ => createIdentity gcm call

def loadOrCreateIdentity : IdentityCommand CertAndKey := do
  let found ← findIdentity gcm call
  let pair ← identityFor gcm call found
  identityFrom accepts pair.cert pair.key

end Calls

inductive IdentityStep where
  | call (call : IdentityCall)
  | lost

def forgetKey (d : Disk String UInt8) : Disk String UInt8 :=
  (d.set keyPath none).set (backupPath keyPath) none

def identityStep (gcm : Gcm) (accepts : Bytes → Bytes → Bool) (d : Disk String UInt8) :
    IdentityStep → Disk String UInt8
  | .call call => (loadOrCreateIdentity gcm accepts call d).2
  | .lost => forgetKey d

def identityRun (gcm : Gcm) (accepts : Bytes → Bytes → Bool) (d : Disk String UInt8)
    (steps : List IdentityStep) : Disk String UInt8 :=
  steps.foldl (identityStep gcm accepts) d

end Cinder.Secrets
