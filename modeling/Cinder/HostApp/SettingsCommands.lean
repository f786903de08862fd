import Cinder.HostApp.HostConfig
set_option autoImplicit false

/-!
The commands that change the settings of the Host: a new password with the
recovery code, the school's name and port, and the schedule of the backups.
-/

namespace Cinder.HostApp
open Cinder.Host Cinder.Programs

abbrev ConfigCommand (α : Type) := Command HostConfig String α

def toKey (bytes : Bytes) : Option BackupKey :=
  if h : bytes.length = 32 then some ⟨bytes, h⟩ else none

def Surroundings.storedBackupKey (env : Surroundings) : Option BackupKey :=
  env.storedSecret.bind toKey

/-- The key in a locked copy that one of the known secrets opens. -/
def recoveredKey (env : Surroundings) (config : HostConfig) (known : List String) :
    Option BackupKey :=
  known.findSome? fun secret =>
    [config.backupPasswordWrap, config.backupRecoveryWrap].findSome? fun wrap =>
      wrap.bind fun wrap => env.unwrap wrap secret

/-- A new key: locked copies of an old key would open the wrong one. -/
def freshBackupKey (env : Surroundings) : ConfigCommand BackupKey := do
  Command.modify fun config =>
    { config with backupPasswordWrap := none, backupRecoveryWrap := none }
  pure env.newKey

def takeBackupKey (env : Surroundings) (known : List String) : ConfigCommand (BackupKey × Bool) := do
  env.inner .loadKey
  match env.storedBackupKey with
  | some key => pure (key, false)
  | none => do
    let config ← Command.get
    match recoveredKey env config known with
    | some key => do
      env.inner .storeKey
      pure (key, false)
    | none => do
      let key ← freshBackupKey env
      env.inner .storeKey
      pure (key, true)

def lockWithPassword (env : Surroundings) (key : BackupKey) :
    Option String → ConfigCommand Bool
  | none => pure false
  | some password => do
    let config ← Command.get
    if config.backupPasswordWrap.bind (fun wrap => env.unwrap wrap password) = some key then
      pure false
    else do
      env.inner .wrapPassword
      Command.modify fun config =>
        { config with backupPasswordWrap := some (env.wrap key password) }
      pure true

def lockWithRecovery (env : Surroundings) (key : BackupKey) :
    Option String → ConfigCommand Bool
  | none => pure false
  | some recovery => do
    env.inner .wrapRecovery
    Command.modify fun config =>
      { config with backupRecoveryWrap := some (env.wrap key recovery) }
    pure true

def prepareBackupKey (env : Surroundings) (known : List String) (password recovery : Option String) :
    ConfigCommand Bool := do
  let (key, renewed) ← takeBackupKey env known
  let locked ← lockWithPassword env key password
  let relocked ← lockWithRecovery env key recovery
  pure (renewed || locked || relocked)

def onConfig {α : Type} (config : HostConfig) (p : ConfigCommand α) : AdminCommand α :=
  Command.zoom (fun s => s.config.getD config) (fun s config => { s with config := some config }) p

def updateConfig (env : Surroundings) (recoveryCode newPassword : String) : ConfigCommand Unit := do
  env.inner .hashPassword
  Command.modify fun config => { config with passwordHash := env.passwordHash }
  env.inner .hashRecovery
  Command.modify fun config => { config with recoveryHash := env.recoveryHash }
  env.inner .hostDir
  let _ ← prepareBackupKey env [recoveryCode] (some newPassword) (some env.nextRecovery)

/-- The new recovery code is returned at the end, and nowhere else. -/
def unlockWithRecovery (env : Surroundings) (recoveryCode newPassword : String) :
    AdminCommand String := do
  validatePassword newPassword
  env.inner (.lock 0)
  let config ← takeConfig
  Command.require (env.verifyPassword config.recoveryHash recoveryCode = true)
    "The Host recovery code is not valid."
  onConfig config (updateConfig env recoveryCode newPassword)
  let config ← takeConfig
  saveConfig env config
  pure env.nextRecovery

def validSettings (schoolName : String) (port : Nat) : Bool :=
  trim schoolName ≠ "" && 1024 ≤ port && port ≤ 65535

def newSettings (current : HostConfig) (schoolName : String) (port : Nat) : HostConfig :=
  { current with schoolName := trim schoolName, port := port }

/-- The rows that go with new settings, and the way back to the memory. -/
def recordSettings (env : Surroundings) : AdminCommand Unit := do
  database env 0
  env.inner .writeSetting
  env.inner .writeAudit
  env.inner (.lock 1)

def applySettings (env : Surroundings) (next : HostConfig) : AdminCommand Unit := do
  saveConfig env next
  recordSettings env
  Command.modify fun s => { s with config := some next }

def saveSettings (env : Surroundings) (token schoolName : String) (port : Nat) :
    AdminCommand Unit := do
  Command.require (validSettings schoolName port = true)
    "Enter a school name and a port from 1024 to 65535."
  withMaintenance env token fun current => applySettings env (newSettings current schoolName port)

def chosenFolder (folder : Option String) : Option String :=
  (folder.map trim).filter (· ≠ "")

/-- The folder exists and does not lie in the live school data. -/
def checkFolder (env : Surroundings) (config : HostConfig) : Option String → AdminCommand Unit
  | none => pure ()
  | some folder => do
    Command.require (env.isAbsolute folder = true ∧ env.isDir folder = true)
      "Choose an existing folder for automatic backups."
    env.inner .canonicalizeLive
    env.inner .canonicalizeFolder
    Command.require ((env.canonicalize config.dataDir).isPrefixOf (env.canonicalize folder) = false)
      "Choose a backup folder outside the live school-data folder."

/-- `auto_backup_status`, as far as it can fail. -/
def autoBackupStatus (env : Surroundings) (token : String) : AdminCommand (Option AutoBackup) := do
  env.inner (.lock 1)
  requireSession env 1 token
  let config ← takeConfig
  database env 1
  env.inner .readLast
  env.inner .readLastError
  env.inner .hostDir
  pure config.autoBackup

def schedule (folder : Option String) (keep : Nat) : Option AutoBackup :=
  (chosenFolder folder).map fun folder => ⟨folder, keep⟩

def saveAutoBackup (env : Surroundings) (token : String) (folder : Option String) (keep : Nat) :
    AdminCommand (Option AutoBackup) := do
  Command.require (1 ≤ keep ∧ keep ≤ 90) "Keep between 1 and 90 automatic backups."
  env.inner (.lock 0)
  requireSession env 0 token
  let config ← takeConfig
  checkFolder env config (chosenFolder folder)
  Command.modify fun s => { s with config := some { config with autoBackup := schedule folder keep } }
  saveConfig env { config with autoBackup := schedule folder keep }
  database env 0
  env.inner .writeAudit
  autoBackupStatus env token

end Cinder.HostApp

/-!
The commands that know the Host password or the recovery code: setting the Host up
and unlocking it. They keep the backup key in the secret store and its locked copies
in the settings.
-/

namespace Cinder.HostApp
open Cinder.Host Cinder.Programs

/-- The shared state with the count of wrong passwords, and the bytes under
`backup-key` in the secret store. -/
structure KeyedHost where
  host : HostState
  failedLogins : Nat
  blockedUntil : Option Time
  secret : Option Bytes
  deriving DecidableEq, Repr

abbrev KeyCommand (α : Type) := Command KeyedHost String α

inductive SetupStep where
  | openData | preparePin | connect | writeSetting | writeAudit
  deriving DecidableEq, Repr

def onHost {α : Type} (p : AdminCommand α) : KeyCommand α :=
  Command.zoom KeyedHost.host (fun s host => { s with host }) p

namespace Surroundings
variable (env : Surroundings)

def withSecret (secret : Option Bytes) : Surroundings := { env with storedSecret := secret }

/-- What the store holds when the key has been taken: a key that was not there is
put there. -/
def secretAfter (config : HostConfig) (known : List String) : Option Bytes :=
  if env.storedBackupKey = none ∧ env.fails .loadKey = none ∧ env.fails .storeKey = none then
    some ((recoveredKey env config known).getD env.newKey).1
  else env.storedSecret

end Surroundings

/-- `prepare_backup_key` on settings that are not shared, or not yet. -/
def prepareStoredKey (env : Surroundings) (config : HostConfig) (known : List String)
    (password recovery : Option String) : KeyCommand (Except String Bool × HostConfig) := do
  let s ← Command.get
  let env := env.withSecret s.secret
  Command.modify fun s => { s with secret := env.secretAfter config known }
  pure (prepareBackupKey env known password recovery config)

def firstConfig (env : Surroundings) (dataDir schoolName : String) (port : Nat) : HostConfig :=
  ⟨dataDir, trim schoolName, "0.0.0.0", port, env.passwordHash, env.recoveryHash, none, none, none⟩

/-- `AppState::open` and the first rows of the school. -/
def openSchool (fails : SetupStep → Option String) : KeyCommand Unit := do
  Command.attempt (fails .openData)
  Command.attempt (fails .preparePin)
  Command.attempt (fails .connect)
  Command.attempt (fails .writeSetting)
  Command.attempt (fails .writeAudit)

/-- The recovery code is returned at the end. -/
def setupHost (env : Surroundings) (fails : SetupStep → Option String)
    (dataDir schoolName password : String) (port : Nat) : KeyCommand String := do
  Command.require (trim schoolName ≠ "") "Enter the school name."
  Command.require (1024 ≤ port ∧ port ≤ 65535) "Choose a port from 1024 to 65535."
  onHost (validatePassword password)
  Command.require (env.isAbsolute dataDir = true) "Choose an absolute school-data folder."
  onHost (env.inner (.lock 0))
  let s ← Command.get
  Command.require (s.host.config = none) "Cinder Host is already set up."
  onHost (env.inner .hashPassword)
  onHost (env.inner .hashRecovery)
  onHost (env.inner .hostDir)
  let (prepared, config) ← prepareStoredKey env (firstConfig env dataDir schoolName port) []
    (some password) (some env.nextRecovery)
  let _ ← Command.ofExcept prepared
  openSchool fails
  onHost (saveConfig env config)
  onHost (Command.modify fun host => { host with config := some config })
  pure env.nextRecovery

def countWrong (env : Surroundings) : KeyCommand Unit :=
  Command.modify fun s =>
    if 5 ≤ s.failedLogins+1 then
      { s with failedLogins := 0, blockedUntil := some (env.now 0+30000000000) }
    else { s with failedLogins := s.failedLogins+1 }

/-- The one moment the password is known. A failure must not block the Host. -/
def keepBackupsOpenable (env : Surroundings) (password : String) (config : HostConfig) :
    KeyCommand Unit :=
  if env.fails .hostDir = none then do
    let (prepared, config) ← prepareStoredKey env config [password] (some password) none
    onHost (Command.modify fun host => { host with config := some config })
    if prepared.toOption = some true then do
      let _ ← (onHost (saveConfig env config)).outcome
      pure ()
    else pure ()
  else pure ()

def unlock (env : Surroundings) (token password : String) : KeyCommand String := do
  onHost (env.inner (.lock 0))
  let s ← Command.get
  Command.require (s.blockedUntil.all fun blocked => blocked ≤ env.now 0)
    "Too many attempts. Wait 30 seconds and try again."
  let config ← onHost takeConfig
  if env.verifyPassword config.passwordHash password then do
    Command.modify fun s => { s with failedLogins := 0, blockedUntil := none }
    keepBackupsOpenable env password config
    onHost (Command.modify fun host => { host with session := some ⟨token, env.now 1⟩ })
    pure token
  else do
    countWrong env
    Command.fail "The Host password is incorrect."

/-- `unlock_with_recovery` comes to the key. -/
def reachesKey (env : Surroundings) (recoveryCode newPassword : String) (config : HostConfig) :
    Bool :=
  validPassword newPassword && (env.fails (.lock 0)).isNone &&
    env.verifyPassword config.recoveryHash recoveryCode && (env.fails .hashPassword).isNone &&
      (env.fails .hashRecovery).isNone && (env.fails .hostDir).isNone

/-- `unlock_with_recovery`, with what it leaves in the secret store. -/
def unlockStored (env : Surroundings) (recoveryCode newPassword : String) : KeyCommand String := do
  let s ← Command.get
  let env := env.withSecret s.secret
  Command.modify fun s => { s with
    secret := match s.host.config with
      | some config =>
        if reachesKey env recoveryCode newPassword config then
          env.secretAfter config [recoveryCode]
        else s.secret
      | none => s.secret }
  onHost (unlockWithRecovery env recoveryCode newPassword)

end Cinder.HostApp
