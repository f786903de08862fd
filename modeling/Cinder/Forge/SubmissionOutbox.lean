import Cinder.Host.HostValues
import Cinder.Programs.RequestPool
import Cinder.Storage.UniqueTable
import Mathlib.Data.List.Sort
set_option autoImplicit false

/-!
Work that a student hands in while the Host is away waits in an outbox on the
device. Every access of the outbox and every answer of the Host is a step of its
own; a step that never comes stands for an access that failed.
-/

namespace Cinder.Forge
open Cinder.Host Cinder.Storage Cinder.Programs Cinder.Programs.Program

structure SubmissionPayload where
  assignmentId : String
  doc : Json
  text : String
  note : String
  deriving DecidableEq, Repr

inductive OutboxPayload where
  | note (value : Json)
  | submission (payload : SubmissionPayload)
  deriving DecidableEq, Repr

structure OutboxEntry where
  key : String
  payload : OutboxPayload
  queuedAt : String
  deriving DecidableEq, Repr

instance : Keyed OutboxEntry where
  clash r r' := r.key = r'.key
  refl r := by simp
  symm r r' := by simp [eq_comm]

abbrev Outbox := Table OutboxEntry

def outboxEntries (outbox : Outbox) : List OutboxEntry :=
  outbox.rows.insertionSort fun a b => a.key ≤ b.key

def submissionOutboxKey (scope assignmentId : String) : String :=
  scope ++ "submission:" ++ assignmentId

def belongsToClassroomScope (key scope : String) : Bool := scope.toList.isPrefixOf key.toList

/-- How a request to the Host ended: with success, with an `ApiError`, whose
status is 0 when the Host could not be reached, or with another failure. -/
inductive HostAnswer where
  | accepted
  | apiError (status : Nat) (message : String)
  | failed (message : String)
  deriving DecidableEq, Repr

def isOffline (status : Nat) : Bool := status = 0

def shouldRetryOutboxFailure (status : Nat) (offline : Bool) : Bool :=
  offline || status = 408 || status = 425 || status = 429 || status ≥ 500

def HostAnswer.final : HostAnswer → Bool
  | .accepted => true
  | .apiError status _ => !shouldRetryOutboxFailure status (isOffline status)
  | .failed _ => false

/-- Why an entry is removed. The outbox does not know; the history does. -/
inductive Removal where
  | flushed | replaced | cancelled
  deriving DecidableEq, Repr

/-- Accesses of the outbox. `getAll` and the Host's answers change nothing. -/
inductive OutboxStatement where
  | getAll
  | put (entry : OutboxEntry)
  | delete (key : String) (why : Removal)
  | answer (key : String) (payload : SubmissionPayload) (answer : HostAnswer)
  deriving DecidableEq, Repr

def OutboxStatement.run : OutboxStatement → Outbox → Except String Outbox
  | .getAll, outbox => .ok outbox
  | .put entry, outbox => .ok (outbox.put entry)
  | .delete key _, outbox => .ok (outbox.delete fun entry => entry.key = key)
  | .answer _ _ _, outbox => .ok outbox

instance : Engine Outbox OutboxStatement String := ⟨OutboxStatement.run⟩

abbrev OutboxProgram := Program Outbox OutboxStatement String

def queueOffline (key : String) (payload : SubmissionPayload) (now : String) :
    OutboxProgram Unit :=
  execute (.put ⟨key, .submission payload, now⟩)

def removeOutbox (key : String) (why : Removal) : OutboxProgram Unit :=
  execute (.delete key why)

/-- `api.submitWork` comes back with the answer. -/
def submitWork (key : String) (payload : SubmissionPayload) (answer : HostAnswer) :
    OutboxProgram Unit :=
  execute (.answer key payload answer)

/-- The message shown, and the assignments that are shown as waiting if they
were read again. -/
structure Screen where
  message : String := ""
  queued : Option (List String) := none
  deriving DecidableEq, Repr

def waiting (scope : String) (outbox : Outbox) : List String :=
  (outboxEntries outbox).filterMap fun entry =>
    match entry.payload with
    | .submission payload =>
      if belongsToClassroomScope entry.key scope then some payload.assignmentId else none
    | .note _ => none

def readQueued (scope message : String) : OutboxProgram Screen := do
  let queued ← query (waiting scope)
  return ⟨message, some queued⟩

def rejectedMessage : String :=
  "A waiting submission was rejected by the Host and was not sent. Your original note is still saved on this device."

/-- The loop of `flushCurrentStudent`. `answers` are the Host's answers to the
requests it makes. -/
def flushEntries (scope : String) (answers : Nat → HostAnswer) :
    Nat → List OutboxEntry → String → OutboxProgram String
  | _, [], message => return message
  | n, entry :: rest, message =>
    match entry.payload with
    | .note _ => flushEntries scope answers n rest message
    | .submission payload =>
      if belongsToClassroomScope entry.key scope then do
        submitWork entry.key payload (answers n)
        match answers n with
        | .accepted => do
          removeOutbox entry.key .flushed
          flushEntries scope answers (n+1) rest message
        | .failed _ => return message
        | .apiError status _ =>
          if shouldRetryOutboxFailure status (isOffline status) then
            if isOffline status then return message
            else flushEntries scope answers (n+1) rest message
          else do
            removeOutbox entry.key .flushed
            flushEntries scope answers (n+1) rest rejectedMessage
      else flushEntries scope answers n rest message

def flushCurrentStudent (scope : String) (answers : Nat → HostAnswer) :
    OutboxProgram Screen := do
  let entries ← executeReturning .getAll outboxEntries
  let message ← flushEntries scope answers 0 entries ""
  readQueued scope message

structure ChosenNote where
  title : String
  doc : Json
  text : String
  deriving DecidableEq, Repr

/-- What `submit` sees: the screen's state, the answer it gets if it asks the
Host, and the time. -/
structure SubmitCall where
  assignmentId : String
  note : Option ChosenNote
  resubmitted : Bool := false
  online : Bool
  syncing : Bool := false
  graded : Bool := false
  answer : HostAnswer := .accepted
  now : String
  deriving DecidableEq, Repr

/-- The end of `submit`: the work is sent, or queued while the Host is away. -/
def sendOrQueue (scope : String) (call : SubmitCall) (payload : SubmissionPayload) :
    OutboxProgram Screen :=
  let key := submissionOutboxKey scope call.assignmentId
  if call.online then do
    removeOutbox key .replaced
    submitWork key payload call.answer
    match call.answer with
    | .accepted => return {
        message := "Work submitted. This saved version will not change when you edit the note." }
    | .failed message => return { message }
    | .apiError status message =>
      if isOffline status then do
        queueOffline key payload call.now
        readQueued scope
          "The Host went offline. This version will be sent when this account reconnects."
      else return { message }
  else do
    queueOffline key payload call.now
    readQueued scope "Saved on this device. It will be sent when this account reconnects."

/-- `jsonBytes` is the length of a document as JSON text. -/
def submit (jsonBytes : Json → Nat) (scope : String) (call : SubmitCall) :
    OutboxProgram Screen :=
  match call.note with
  | none => return {}
  | some note =>
    if call.syncing || call.graded then return {}
    else if note.text = "" then return { message := "The selected note is empty." }
    else if note.text.utf8ByteSize > 1048576 || jsonBytes note.doc > 2097152 then
      return { message := "This note is too large to submit." }
    else
      let changeNote := (if call.resubmitted then "Resubmitted from “" else "Submitted from “") ++
        note.title ++ "”"
      sendOrQueue scope call ⟨call.assignmentId, note.doc, note.text, changeNote⟩

/-- What `withdraw` sees. `queued` says that the work is shown as waiting;
`submitted` that there is work on the Host that can still be taken back. -/
structure WithdrawCall where
  assignmentId : String
  queued : Bool
  online : Bool
  syncing : Bool := false
  submitted : Bool := true
  confirmed : Bool := true
  answer : HostAnswer := .accepted
  deriving DecidableEq, Repr

def withdraw (scope : String) (call : WithdrawCall) : OutboxProgram Screen :=
  if call.syncing then return {}
  else if call.queued then do
    removeOutbox (submissionOutboxKey scope call.assignmentId) .cancelled
    let screen ← readQueued scope ""
    return { screen with message := "The waiting submission was cancelled." }
  else if !call.online || !call.submitted || !call.confirmed then return {}
  else
    match call.answer with
    | .accepted => return { message := "Submission taken back." }
    | .failed message => return { message }
    | .apiError _ message => return { message }

inductive StudentAction where
  | flush (answers : Nat → HostAnswer)
  | submit (call : SubmitCall)
  | withdraw (call : WithdrawCall)

def handle (jsonBytes : Json → Nat) (scope : String) : StudentAction → OutboxProgram Screen
  | .flush answers => flushCurrentStudent scope answers
  | .submit call => Forge.submit jsonBytes scope call
  | .withdraw call => Forge.withdraw scope call

abbrev OutboxPool (ι : Type) := Pool ι StudentAction Outbox OutboxStatement String Screen

end Cinder.Forge
