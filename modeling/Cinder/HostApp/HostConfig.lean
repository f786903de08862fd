import Cinder.Host.HostValues
import Cinder.Programs.Commands
set_option autoImplicit false

/-!
The settings of the Host app, in memory and in `host-admin.json`, and the guards
that its commands pass first.
-/

namespace Cinder.HostApp
open Cinder.Host Cinder.Programs

abbrev BackupKey := {key : Bytes // key.length = 32}

structure KeyWrap where
  salt : String
  nonce : String
  ciphertext : String
  deriving DecidableEq, Repr

structure AutoBackup where
  folder : String
  keep : Nat
  deriving DecidableEq, Repr

structure HostConfig where
  dataDir : String
  schoolName : String
  bind : String
  port : Nat
  passwordHash : String
  recoveryHash : String
  backupPasswordWrap : Option KeyWrap
  backupRecoveryWrap : Option KeyWrap
  autoBackup : Option AutoBackup
  deriving DecidableEq, Repr

structure AdminSession where
  token : String
  touched : Time
  deriving DecidableEq, Repr

/-- What the commands share, and what `host-admin.json` holds. -/
structure HostState where
  config : Option HostConfig
  session : Option AdminSession
  serverRunning : Bool
  maintenance : Bool
  file : Option HostConfig
  deriving DecidableEq, Repr

abbrev AdminCommand (α : Type) := Command HostState String α

def sessionTtl : Int := minutes 15

inductive SaveStep where
  | parent | createDirAll | newTemporary | serialise | write | sync | persist
  deriving DecidableEq, Repr

inductive DatabaseStep where
  | connect | busyTimeout | foreignKeys
  deriving DecidableEq, Repr

/-- The steps inside the commands that may fail. A command that takes the lock or
opens the database twice has a number for each time. -/
inductive InnerStep where
  | lock (time : Nat)
  | hostDir
  | hashPassword
  | hashRecovery
  | loadKey
  | storeKey
  | wrapPassword
  | wrapRecovery
  | save (step : SaveStep)
  | database (time : Nat) (step : DatabaseStep)
  | writeSetting
  | writeAudit
  | canonicalizeLive
  | canonicalizeFolder
  | readLast
  | readLastError
  deriving DecidableEq, Repr

/-- What one command meets: which of its steps fail and with what text, what the
random and time sources give, and the library functions that it calls. -/
structure Surroundings where
  fails : InnerStep → Option String
  now : Nat → Time
  passwordHash : String
  recoveryHash : String
  newKey : BackupKey
  nextRecovery : String
  storedSecret : Option Bytes
  verifyPassword : String → String → Bool
  unwrap : KeyWrap → String → Option BackupKey
  wrap : BackupKey → String → KeyWrap
  isAbsolute : String → Bool
  isDir : String → Bool
  canonicalize : String → List String

namespace Surroundings
variable (env : Surroundings)

def inner {S : Type} (step : InnerStep) : Command S String Unit := .attempt (env.fails step)

def Saves : Prop := ∀ step : SaveStep, env.fails (.save step) = none

def Opens (time : Nat) : Prop := ∀ step : DatabaseStep, env.fails (.database time step) = none

end Surroundings

/-- The file is written beside the old one and then takes its name. -/
def saveConfig (env : Surroundings) (config : HostConfig) : AdminCommand Unit := do
  env.inner (.save .parent)
  env.inner (.save .createDirAll)
  env.inner (.save .newTemporary)
  env.inner (.save .serialise)
  env.inner (.save .write)
  env.inner (.save .sync)
  env.inner (.save .persist)
  Command.modify fun s => { s with file := some config }

def database (env : Surroundings) (time : Nat) : AdminCommand Unit := do
  env.inner (.database time .connect)
  env.inner (.database time .busyTimeout)
  env.inner (.database time .foreignKeys)

def validPassword (password : String) : Bool := 8 ≤ charCount password && charCount password ≤ 1024

def validatePassword (password : String) : AdminCommand Unit :=
  .require (validPassword password = true)
    "The Host password must contain between 8 and 1,024 characters."

/-- A session that is too old or not the one of the token is ended. -/
def requireSession (env : Surroundings) (time : Nat) (token : String) : AdminCommand Unit := do
  let s ← Command.get
  match s.session with
  | none => Command.fail "Unlock Cinder Host first."
  | some session =>
    if session.token ≠ token ∨ env.now time-session.touched > sessionTtl then do
      Command.modify fun s => { s with session := none }
      Command.fail "Cinder Host locked after 15 minutes. Unlock it again."
    else Command.modify fun s => { s with session := some { session with touched := env.now time } }

def takeConfig : AdminCommand HostConfig := do
  let s ← Command.get
  match s.config with
  | none => Command.fail "Set up Cinder Host first."
  | some config => pure config

def endMaintenance (env : Surroundings) : AdminCommand Unit :=
  if env.fails (.lock 2) = none then Command.modify fun s => { s with maintenance := false }
  else pure ()

def withMaintenance {α : Type} (env : Surroundings) (token : String)
    (operation : HostConfig → AdminCommand α) : AdminCommand α := do
  env.inner (.lock 0)
  requireSession env 0 token
  let s ← Command.get
  Command.require (s.maintenance = false) "Host maintenance is already in progress."
  Command.require (s.serverRunning = false)
    "Stop the Host before changing school storage or settings."
  let config ← takeConfig
  Command.modify fun s => { s with maintenance := true }
  let result ← (operation config).outcome
  endMaintenance env
  Command.ofExcept result

theorem requireSession_keeps {T : Type} {part : HostState → T} (env : Surroundings) (time : Nat)
    (token : String) (hpart : ∀ s session, part { s with session := session } = part s) :
    (requireSession env time token).Keeps part := by
  refine .bind .get fun s => ?_
  cases s.session with
  | none => exact .fail _
  | some session =>
    dsimp only
    split
    · exact .bind (.modify fun _ => hpart _ _) fun _ => .fail _
    · exact .modify fun _ => hpart _ _

theorem takeConfig_none {s : HostState} (h : s.config = none) :
    takeConfig s = (.error "Set up Cinder Host first.", s) := by
  rw [takeConfig, Command.bind_ok (Command.get_run s), h]
  rfl

theorem takeConfig_some {s : HostState} {config : HostConfig} (h : s.config = some config) :
    takeConfig s = (.ok config, s) := by
  rw [takeConfig, Command.bind_ok (Command.get_run s), h]
  rfl

theorem takeConfig_keeps {T : Type} {part : HostState → T} : takeConfig.Keeps part := by
  refine .bind .get fun s => ?_
  cases s.config with
  | none => exact .fail _
  | some config => exact .pure _

end Cinder.HostApp
