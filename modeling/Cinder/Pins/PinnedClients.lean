import Mathlib.Logic.Function.Basic
set_option autoImplicit false

/-!
The apps' connections to their Hosts: a client for each origin that expects one
certificate, or any, and the file of pins that is rewritten whole. All calls of
`send` and `forget` run side by side, one step at a time.
-/

namespace Cinder.Pins

variable {Origin Cert Pin : Type}

/-- A cached client with its verifier. A connection that is kept alive answers
later requests without another handshake. -/
structure PinnedClient (Pin Cert : Type) where
  expected : Option Pin
  seen : Option Pin
  mismatch : Bool
  connections : List Cert
  deriving DecidableEq

abbrev PinMap (Origin Pin : Type) := Origin → Option Pin

/-- The temporary pin file, which all writers share. -/
inductive TempFile (Origin Pin : Type) where
  | absent
  | torn
  | whole (pins : PinMap Origin Pin)

/-- What a reader makes of a file that is no JSON is an empty map. -/
def TempFile.pins : TempFile Origin Pin → PinMap Origin Pin
  | .whole pins => pins
  | _ => fun _ => none

/-- How far a `send` is. The certificate is the one of the connection that the
request goes over; `seen` is what was read from the verifier, and `handle` is the
number of the file that was opened. -/
inductive SendPhase (Origin Pin Cert : Type) where
  | called
  | connecting (client : Nat)
  | sent (client : Nat) (cert : Cert)
  | responded (client : Nat) (cert : Cert)
  | saw (cert : Cert) (seen : Pin)
  | read (cert : Cert) (seen : Pin) (pins : PinMap Origin Pin)
  | opened (cert : Cert) (seen : Pin) (pins : PinMap Origin Pin) (handle : Nat)
  | written (cert : Cert) (seen : Pin)
  | stored (cert : Cert) (seen : Pin)
  | returned (answer : Option Cert)

inductive ForgetPhase (Origin Pin : Type) where
  | called
  | removed
  | read (pins : PinMap Origin Pin)
  | opened (pins : PinMap Origin Pin) (handle : Nat)
  | written
  | returned

inductive Proc (Origin Pin Cert : Type) where
  | send (origin : Origin) (phase : SendPhase Origin Pin Cert)
  | forget (origin : Origin) (phase : ForgetPhase Origin Pin)
  | killed

/-- What the surroundings decide about a step. A text that `overlaps` has the end of a
longer one behind it, which another call wrote into the same file. -/
inductive Choice (Cert : Type) where
  | proceed
  | fails
  | failsLater
  | overlaps
  | handshake (cert : Cert)
  | reuse (connection : Nat)
  deriving DecidableEq

inductive Move (Origin Cert : Type) where
  | send (i : Nat) (origin : Origin)
  | forget (i : Nat) (origin : Origin)
  | restart
  | step (i : Nat) (choice : Choice Cert)
  deriving DecidableEq

/-- `returned` is an Ok with the certificate that answered; `first` says that none
was expected. A `forget` is noted with its call and with each of its steps. -/
inductive Event (Origin Cert : Type) where
  | called (i : Nat) (origin : Origin)
  | returned (i : Nat) (origin : Origin) (cert : Cert) (first : Bool)
  | forgot (origin : Origin)
  deriving DecidableEq

/-- Temporary files are numbered as they are made: `placed` is the number of the one that
has become the pin file, and `files` that of the newest, which is `temp` if it is there. -/
structure World (Origin Pin Cert : Type) where
  file : PinMap Origin Pin
  placed : Nat
  temp : TempFile Origin Pin
  files : Nat
  cache : Origin → Option Nat
  clients : List (PinnedClient Pin Cert)
  procs : Nat → Option (Proc Origin Pin Cert)
  history : List (Event Origin Cert)

def World.fresh : World Origin Pin Cert :=
  ⟨fun _ => none, 0, .absent, 0, fun _ => none, [], fun _ => none, []⟩

section Verifier
variable [DecidableEq Pin] (digest : Cert → Pin)

/-- `verify_server_cert`: what was seen is noted before it is compared. -/
def PinnedClient.accepts (c : PinnedClient Pin Cert) (cert : Cert) : Bool :=
  match c.expected with
  | some expected => expected = digest cert
  | none => true

def PinnedClient.verify (c : PinnedClient Pin Cert) (cert : Cert) : PinnedClient Pin Cert :=
  if c.accepts digest cert then
    { c with seen := some (digest cert), connections := cert :: c.connections }
  else { c with seen := some (digest cert), mismatch := true }

end Verifier

namespace World

variable (w : World Origin Pin Cert)

/-- `fs::write` opens the file first, and empties one that is there. -/
def openTemp : World Origin Pin Cert :=
  match w.temp with
  | .absent => { w with temp := .torn, files := w.files+1 }
  | _ => { w with temp := .torn }

/-- The open file is written wherever it has been renamed to, also if that is the place of
the pins. -/
def writeOpened (handle : Nat) (content : TempFile Origin Pin) : World Origin Pin Cert :=
  if handle = w.placed then { w with file := content.pins }
  else if handle = w.files then { w with temp := content }
  else w

@[simp] theorem history_openTemp : w.openTemp.history = w.history := by
  unfold openTemp
  split <;> rfl

@[simp] theorem history_writeOpened (handle : Nat) (content : TempFile Origin Pin) :
    (w.writeOpened handle content).history = w.history := by
  unfold writeOpened
  split
  · rfl
  · split <;> rfl

def renameTemp : Option (World Origin Pin Cert) :=
  match w.temp with
  | .absent => none
  | content => some { w with file := content.pins, placed := w.files, temp := .absent }

variable [DecidableEq Origin]

def setSend (i : Nat) (o : Origin) (phase : SendPhase Origin Pin Cert) : World Origin Pin Cert :=
  { w with procs := Function.update w.procs i (some (.send o phase)) }

def setForget (i : Nat) (o : Origin) (phase : ForgetPhase Origin Pin) : World Origin Pin Cert :=
  { w with
    procs := Function.update w.procs i (some (.forget o phase))
    history := .forgot o :: w.history }

/-- `build_client`, and the entry in the cache. -/
def addClient (o : Origin) (expected : Option Pin) : World Origin Pin Cert :=
  { w with
    clients := w.clients ++ [⟨expected, none, false, []⟩]
    cache := Function.update w.cache o (some w.clients.length) }

/-- `client_for`, all of it under the lock of the cache. -/
def lookup (i : Nat) (o : Origin) : World Origin Pin Cert :=
  match w.cache o with
  | some k => w.setSend i o (.connecting k)
  | none => (w.addClient o (w.file o)).setSend i o (.connecting w.clients.length)

def handshake [DecidableEq Pin] (digest : Cert → Pin) (i : Nat) (o : Origin) (k : Nat) (cert : Cert) :
    World Origin Pin Cert :=
  match w.clients[k]? with
  | none => w
  | some c =>
    ({ w with clients := w.clients.set k (c.verify digest cert) } : World Origin Pin Cert).setSend i o
      (if c.accepts digest cert then .sent k cert else .connecting k)

def reuse (i : Nat) (o : Origin) (k n : Nat) : World Origin Pin Cert :=
  match w.clients[k]?.bind fun c => c.connections[n]? with
  | none => w
  | some cert => w.setSend i o (.sent k cert)

/-- A request that failed. After a mismatch the client is dropped. -/
def failRequest (i : Nat) (o : Origin) (k : Nat) : World Origin Pin Cert :=
  ({ w with cache := if (w.clients[k]?.map fun c => c.mismatch) = some true
      then Function.update w.cache o none else w.cache } : World Origin Pin Cert).setSend i o
        (.returned none)

def returnOk (i : Nat) (o : Origin) (cert : Cert) (first : Bool) : World Origin Pin Cert :=
  { w with
    procs := Function.update w.procs i (some (.send o (.returned (some cert))))
    history := .returned i o cert first :: w.history }

/-- After the response: at first contact the pin is taken from the verifier. -/
def receive (i : Nat) (o : Origin) (k : Nat) (cert : Cert) : World Origin Pin Cert :=
  match w.clients[k]? with
  | none => w
  | some c =>
    match c.expected, c.seen with
    | none, some seen => w.setSend i o (.saw cert seen)
    | none, none => w.returnOk i o cert true
    | some _, _ => w.returnOk i o cert false

def sendStep [DecidableEq Pin] (digest : Cert → Pin) (i : Nat) (o : Origin) :
    SendPhase Origin Pin Cert → Choice Cert → World Origin Pin Cert
  | .called, .proceed => w.lookup i o
  | .connecting k, .handshake cert => w.handshake digest i o k cert
  | .connecting k, .reuse n => w.reuse i o k n
  | .connecting k, .fails => w.failRequest i o k
  | .sent k _, .handshake cert => w.handshake digest i o k cert
  | .sent k _, .reuse n => w.reuse i o k n
  | .sent k _, .fails => w.failRequest i o k
  | .sent k cert, .proceed => w.setSend i o (.responded k cert)
  | .responded k cert, .proceed => w.receive i o k cert
  | .saw cert seen, .proceed => w.setSend i o (.read cert seen w.file)
  | .read cert seen pins, .proceed =>
    w.openTemp.setSend i o (.opened cert seen pins w.openTemp.files)
  | .opened cert seen pins handle, .proceed =>
    (w.writeOpened handle (.whole (Function.update pins o (some seen)))).setSend i o
      (.written cert seen)
  | .opened cert seen _ handle, .overlaps =>
    (w.writeOpened handle .torn).setSend i o (.written cert seen)
  | .opened _ _ _ handle, .failsLater => (w.writeOpened handle .torn).setSend i o (.returned none)
  | .written cert seen, .proceed =>
    match w.renameTemp with
    | none => w.setSend i o (.returned none)
    | some w' => w'.setSend i o (.stored cert seen)
  | .stored cert seen, .proceed => (w.addClient o (some seen)).returnOk i o cert true
  | .stored _ seen, .failsLater => (w.addClient o (some seen)).setSend i o (.returned none)
  | .returned _, _ => w
  | _, .fails => w.setSend i o (.returned none)
  | _, _ => w

def forgetStep (i : Nat) (o : Origin) :
    ForgetPhase Origin Pin → Choice Cert → World Origin Pin Cert
  | .called, .proceed =>
    ({ w with cache := Function.update w.cache o none } : World Origin Pin Cert).setForget i o .removed
  | .removed, .proceed =>
    w.setForget i o (if (w.file o).isSome then .read w.file else .returned)
  | .read pins, .proceed => w.openTemp.setForget i o (.opened pins w.openTemp.files)
  | .opened pins handle, .proceed =>
    (w.writeOpened handle (.whole (Function.update pins o none))).setForget i o .written
  | .opened _ handle, .overlaps => (w.writeOpened handle .torn).setForget i o .written
  | .opened _ handle, .failsLater => (w.writeOpened handle .torn).setForget i o .returned
  | .written, .proceed =>
    match w.renameTemp with
    | none => w.setForget i o .returned
    | some w' => w'.setForget i o .returned
  | .returned, _ => w
  | _, .fails => w.setForget i o .returned
  | _, _ => w

/-- A restart ends every call and empties the cache. The files stay. -/
def restart : World Origin Pin Cert :=
  { w with
    cache := fun _ => none
    procs := fun i => (w.procs i).map fun _ => .killed }

def move [DecidableEq Pin] (digest : Cert → Pin) : Move Origin Cert → World Origin Pin Cert
  | .send i o =>
    match w.procs i with
    | some _ => w
    | none =>
      { w with
        procs := Function.update w.procs i (some (.send o .called))
        history := .called i o :: w.history }
  | .forget i o =>
    match w.procs i with
    | some _ => w
    | none => w.setForget i o .called
  | .restart => w.restart
  | .step i choice =>
    match w.procs i with
    | some (.send o phase) => w.sendStep digest i o phase choice
    | some (.forget o phase) => w.forgetStep i o phase choice
    | _ => w

def run [DecidableEq Pin] (digest : Cert → Pin) (moves : List (Move Origin Cert)) :
    World Origin Pin Cert :=
  moves.foldl (fun w m => w.move digest m) w

end World

end Cinder.Pins
