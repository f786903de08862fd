import Cinder.HostApp.SettingsCommands
import Cinder.Programs.MoveRuns
import Mathlib.Logic.Function.Basic
set_option autoImplicit false

/-!
The Host's server task and the operations that hold the maintenance flag. A
command works on the shared state under its lock, which it gives back while an
operation runs and while `stop_server` waits for the task.
-/

namespace Cinder.HostApp
open Cinder.Host Cinder.Programs

inductive Operation where
  | restoreSchool | resetSchool | saveSettings | backupSchool | scheduledBackup
  deriving DecidableEq, Repr

/-- The operations of `with_maintenance`. A backup may run beside the server. -/
def Operation.excludesServer : Operation → Bool
  | .restoreSchool | .resetSchool | .saveSettings => true
  | .backupSchool | .scheduledBackup => false

/-- How every command with a session begins that must not run in maintenance. -/
def outsideMaintenance (env : Surroundings) (token message : String) : AdminCommand HostState := do
  env.inner (.lock 0)
  requireSession env 0 token
  let s ← Command.get
  Command.require (s.maintenance = false) message
  pure s

def holdMaintenance : AdminCommand HostConfig := do
  let config ← takeConfig
  Command.modify fun s => { s with maintenance := true }
  pure config

/-- `with_maintenance`, up to its operation. -/
def enterMaintenance (env : Surroundings) (token : String) : AdminCommand HostConfig := do
  let s ← outsideMaintenance env token "Host maintenance is already in progress."
  Command.require (s.serverRunning = false)
    "Stop the Host before changing school storage or settings."
  holdMaintenance

theorem withMaintenance_eq {α : Type} (env : Surroundings) (token : String)
    (operation : HostConfig → AdminCommand α) :
    withMaintenance env token operation = (do
      let config ← enterMaintenance env token
      let result ← (operation config).outcome
      endMaintenance env
      Command.ofExcept result) := by
  simp only [enterMaintenance, outsideMaintenance, holdMaintenance, withMaintenance,
    Command.bind_assoc]
  rfl

/-- `with_backup_lock`, up to its operation. -/
def enterBackup (env : Surroundings) (token : String) : AdminCommand HostConfig := do
  let _ ← outsideMaintenance env token "Host maintenance is already in progress."
  holdMaintenance

/-- `run_scheduled_backup`, up to the backup. -/
def enterScheduled (env : Surroundings) : AdminCommand (Option HostConfig) := do
  env.inner (.lock 0)
  let s ← Command.get
  match s.config with
  | none => pure none
  | some config =>
    if s.maintenance ∨ config.autoBackup.isNone then pure none
    else do
      Command.modify fun s => { s with maintenance := true }
      pure (some config)

/-- What an operation does before it runs. It runs if there are settings for it. -/
def Operation.enter (env : Surroundings) (token : String) :
    Operation → AdminCommand (Option HostConfig)
  | .restoreSchool | .resetSchool | .saveSettings => do
    let config ← enterMaintenance env token
    pure (some config)
  | .backupSchool => do
    let config ← enterBackup env token
    pure (some config)
  | .scheduledBackup => enterScheduled env

inductive StartStep where
  | openState | preparePin | tlsIdentity | bind
  deriving DecidableEq, Repr

/-- The lock is held throughout. Whether a task is spawned. -/
def startServer (env : Surroundings) (fails : StartStep → Option String) (token : String) :
    AdminCommand Bool := do
  let s ← outsideMaintenance env token "Host maintenance is in progress."
  let _ ← takeConfig
  if s.serverRunning then pure false
  else do
    Command.attempt (fails .openState)
    Command.attempt (fails .preparePin)
    Command.attempt (fails .tlsIdentity)
    Command.attempt (fails .bind)
    pure true

/-- `stop_server`, up to taking the handle. -/
def enterStop (env : Surroundings) (token : String) : AdminCommand HostState :=
  outsideMaintenance env token "Host maintenance is in progress."

/-- What a command in progress is at: its operation, or waiting for the server
task whose handle it has taken. -/
inductive Phase where
  | working (operation : Operation)
  | awaiting (task : Nat)
  deriving DecidableEq, Repr

/-- The shared state, with the tasks that were spawned, numbered from 0. -/
structure Serving (ι : Type) where
  config : Option HostConfig
  session : Option AdminSession
  maintenance : Bool
  file : Option HostConfig
  server : Option Nat
  spawned : Nat
  finished : Nat → Bool
  procs : ι → Option Phase

/-- `settle` stands for what the other commands, and the operations themselves,
do to the settings and the session. -/
inductive ServingMove (ι : Type) where
  | begin (i : ι) (operation : Operation) (env : Surroundings) (token : String)
  | finish (i : ι) (env : Surroundings)
  | start (env : Surroundings) (fails : StartStep → Option String) (token : String)
  | stop (i : ι) (env : Surroundings) (token : String)
  | awaited (i : ι)
  | taskEnds (task : Nat)
  | settle (config : Option HostConfig) (session : Option AdminSession)
      (file : Option HostConfig)

namespace Serving

variable {ι : Type}

/-- The app has been opened. -/
def opened (config : Option HostConfig) : Serving ι where
  config := config
  session := none
  maintenance := false
  file := config
  server := none
  spawned := 0
  finished _ := false
  procs _ := none

/-- What the guards see: a server runs if its handle is stored and its task has
not finished. -/
def inner (w : Serving ι) : HostState where
  config := w.config
  session := w.session
  serverRunning := w.server.any fun task => !w.finished task
  maintenance := w.maintenance
  file := w.file

def withInner (w : Serving ι) (s : HostState) : Serving ι :=
  { w with config := s.config, session := s.session, maintenance := s.maintenance, file := s.file }

variable [DecidableEq ι]

def setProc (w : Serving ι) (i : ι) (phase : Option Phase) : Serving ι :=
  { w with procs := Function.update w.procs i phase }

def begin (w : Serving ι) (i : ι) (operation : Operation) (env : Surroundings)
    (token : String) : Serving ι :=
  match operation.enter env token w.inner with
  | (.ok (some _), s) => (w.withInner s).setProc i (some (.working operation))
  | (_, s) => w.withInner s

def start (w : Serving ι) (env : Surroundings) (fails : StartStep → Option String)
    (token : String) : Serving ι :=
  match startServer env fails token w.inner with
  | (.ok true, s) => { w.withInner s with server := some w.spawned, spawned := w.spawned+1 }
  | (_, s) => w.withInner s

def stop (w : Serving ι) (i : ι) (env : Surroundings) (token : String) : Serving ι :=
  match enterStop env token w.inner with
  | (.ok _, s) => { (w.withInner s).setProc i (w.server.map .awaiting) with server := none }
  | (_, s) => w.withInner s

/-- A process does one thing at a time, and only what is its turn. -/
def move (w : Serving ι) : ServingMove ι → Serving ι
  | .begin i operation env token =>
    match w.procs i with
    | none => w.begin i operation env token
    | some _ => w
  | .finish i env =>
    match w.procs i with
    | some (.working _) => (w.withInner (endMaintenance env w.inner).2).setProc i none
    | _ => w
  | .start env fails token => w.start env fails token
  | .stop i env token =>
    match w.procs i with
    | none => w.stop i env token
    | some _ => w
  | .awaited i =>
    match w.procs i with
    | some (.awaiting task) => if w.finished task then w.setProc i none else w
    | _ => w
  | .taskEnds task =>
    if task < w.spawned then { w with finished := Function.update w.finished task true } else w
  | .settle config session file => { w with config, session, file }

def run (w : Serving ι) (ms : List (ServingMove ι)) : Serving ι := ms.foldl move w

/-- What `save_settings` does under its flag is a change of the settings. -/
theorem applySettings_settles (w : Serving ι) (env : Surroundings) (next : HostConfig) :
    ∃ config session file, w.withInner (applySettings env next w.inner).2 =
      w.move (.settle config session file) := by
  have hkeeps : (applySettings env next).Keeps HostState.maintenance := by
    refine .bind ?_ fun _ => .bind ?_ fun _ => .modify fun _ => rfl
    · exact .bind (.attempt _) fun _ => .bind (.attempt _) fun _ => .bind (.attempt _) fun _ =>
        .bind (.attempt _) fun _ => .bind (.attempt _) fun _ => .bind (.attempt _) fun _ =>
        .bind (.attempt _) fun _ => .modify fun _ => rfl
    · refine .bind ?_ fun _ => .bind (.attempt _) fun _ => .bind (.attempt _) fun _ => .attempt _
      exact .bind (.attempt _) fun _ => .bind (.attempt _) fun _ => .attempt _
  let s := (applySettings env next w.inner).2
  refine ⟨s.config, s.session, s.file, ?_⟩
  rw [withInner, hkeeps w.inner]
  rfl

end Serving

end Cinder.HostApp
