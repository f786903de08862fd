import Mathlib.Data.List.MinMax
import Cinder.Host.HostAccess
set_option autoImplicit false

namespace Cinder.LiveSessions
open Cinder.Host Cinder.Storage Cinder.Programs Cinder.Programs.Program

structure LiveSessionTask where
  id : Uuid
  revision : Nat
  kind : LiveSessionTaskKind
  targetId : Option Uuid
  title : String
  instructions : String
  createdAt : Time
  deriving DecidableEq, Repr

structure LiveSessionTaskAcknowledgement where
  revision : Nat
  state : LiveSessionTaskState
  updatedAt : Time
  deriving DecidableEq, Repr

structure LiveSession where
  id : Uuid
  classroomId : Uuid
  classroomName : String
  moduleId : String
  moduleName : String
  durationMinutes : Nat
  joinCode : String
  startsAt : Time
  endsAt : Time
  endedAt : Option Time
  serverNow : Time
  currentTask : Option LiveSessionTask
  studentTaskState : Option LiveSessionTaskAcknowledgement
  studentJoined : Bool
  deriving DecidableEq, Repr

structure LiveSessionResult where
  score : ℚ
  elapsedSeconds : Nat
  taskRevision : Option Nat
  submittedAt : Time
  deriving DecidableEq, Repr

structure JoinLiveSessionRequest where
  code : String
  deriving DecidableEq, Repr

structure AcknowledgeLiveSessionTaskRequest where
  revision : Nat
  state : LiveSessionTaskState
  deriving DecidableEq, Repr

structure SubmitLiveSessionResultRequest where
  score : ℚ
  elapsedSeconds : Nat
  deriving DecidableEq, Repr

section Rows
variable (db : Database)

def liveSession? (id : Uuid) : Option LiveSessionRow :=
  db.liveModuleSessions.find? fun s => s.id = id

def joined (sessionId studentId : Uuid) : Bool :=
  db.liveModuleParticipants.rows.any fun p =>
    p.sessionId = sessionId && p.studentId = studentId

/-- `max(revision)` of the session's tasks. -/
def latestRevision (sessionId : Uuid) : Option Nat :=
  ((db.liveSessionTasks.rows.filter fun t => t.sessionId = sessionId).map fun t => t.revision).max?

def currentTask? (sessionId : Uuid) : Option LiveTaskRow := do
  let revision ← latestRevision db sessionId
  db.liveSessionTasks.find? fun t => t.sessionId = sessionId && t.revision = revision

def acknowledgement? (sessionId : Uuid) (revision : Nat) (studentId : Uuid) :
    Option LiveAcknowledgementRow :=
  db.liveSessionTaskAcknowledgements.find? fun a =>
    a.sessionId = sessionId && a.taskRevision = revision && a.studentId = studentId

def resultStored (sessionId studentId : Uuid) : Bool :=
  db.liveModuleResults.rows.any fun r => r.sessionId = sessionId && r.studentId = studentId

def taskStored (sessionId : Uuid) (revision : Nat) : Bool :=
  db.liveSessionTasks.rows.any fun t => t.sessionId = sessionId && t.revision = revision

end Rows

inductive LiveStatement where
  | join (row : LiveParticipantRow)
  | acknowledge (row : LiveAcknowledgementRow)
  | taskEvent (row : LiveTaskEventRow)
  | result (row : LiveResultRow)
  deriving DecidableEq, Repr

def seenAgain (new old : LiveParticipantRow) : LiveParticipantRow :=
  { old with lastSeenAt := new.lastSeenAt }

def acknowledgeAgain (new old : LiveAcknowledgementRow) : LiveAcknowledgementRow :=
  { old with
    state := if old.state = .completed then .completed else new.state
    updatedAt := new.updatedAt }

theorem seenAgain_keeps (new : LiveParticipantRow) : Table.KeepsKeys (seenAgain new) :=
  fun _ _ => rfl

theorem acknowledgeAgain_keeps (new : LiveAcknowledgementRow) :
    Table.KeepsKeys (acknowledgeAgain new) := fun _ _ => rfl

/-- A second result of a student is ignored: `ON CONFLICT DO NOTHING`. -/
def LiveStatement.run : LiveStatement → Database → Except HostError Database
  | .join row, db => do
    referenced (liveSession? db row.sessionId).isSome
    let participants ← stored (db.liveModuleParticipants.upsert
      (fun p => p.sessionId = row.sessionId && p.studentId = row.studentId)
      (seenAgain row) (seenAgain_keeps row) row)
    .ok { db with liveModuleParticipants := participants }
  | .acknowledge row, db => do
    referenced (taskStored db row.sessionId row.taskRevision)
    let acknowledgements ← stored (db.liveSessionTaskAcknowledgements.upsert
      (fun a => a.sessionId = row.sessionId && a.taskRevision = row.taskRevision &&
        a.studentId = row.studentId)
      (acknowledgeAgain row) (acknowledgeAgain_keeps row) row)
    .ok { db with liveSessionTaskAcknowledgements := acknowledgements }
  | .taskEvent row, db => do
    referenced (taskStored db row.sessionId row.taskRevision)
    .ok { db with liveSessionTaskEvents := db.liveSessionTaskEvents ++ [row] }
  | .result row, db =>
    if resultStored db row.sessionId row.studentId then .ok db
    else do
      referenced (joined db row.sessionId row.studentId)
      let results ← stored (db.liveModuleResults.insert row)
      .ok { db with liveModuleResults := results }

instance : Engine Database LiveStatement HostError := ⟨LiveStatement.run⟩

abbrev LiveProgram := Program Database LiveStatement HostError

@[irreducible] def normalizeJoinCode (raw : String) : Except HostError String :=
  let code := upper (trim raw)
  if code.utf8ByteSize = 10 ∧ code.toList.all Char.isAlphanum = true then .ok code
  else .error (.badRequest "Live session code must contain exactly ten letters or numbers.")

def sessionRow (s : LiveSessionRow) (c : ClassroomRow) (serverNow : Time) : LiveSession :=
  { id := s.id, classroomId := s.classroomId, classroomName := c.name, moduleId := s.moduleId
    moduleName := s.moduleName, durationMinutes := s.durationMinutes, joinCode := s.joinCode
    startsAt := s.startsAt, endsAt := s.endsAt, endedAt := s.endedAt, serverNow
    currentTask := none, studentTaskState := none, studentJoined := false }

def loadSession (id : Uuid) (serverNow : Time) : LiveProgram LiveSession :=
  queryRow (fun db => do
    let s ← liveSession? db id
    let c ← classroom? db s.classroomId
    some (sessionRow s c serverNow)) (.notFound "live session")

/-- SQLite's `julianday`, in milliseconds: it takes the nearest one. -/
def julianday (t : Time) : Int := (t+500000)/1000000

/-- The session that a code admits to at `now`. -/
def openSession? (db : Database) (code : String) (now : Time) :
    Option (LiveSessionRow × ClassroomRow) := do
  let s ← db.liveModuleSessions.find? fun s =>
    lower s.joinCode = lower code && s.endedAt.isNone && julianday now < julianday s.endsAt
  let c ← classroom? db s.classroomId
  if c.archivedAt.isNone then some (s, c) else none

def LiveSessionTask.ofRow (t : LiveTaskRow) : LiveSessionTask :=
  { id := t.id, revision := t.revision, kind := t.kind, targetId := t.targetId, title := t.title
    instructions := t.instructions, createdAt := t.createdAt }

def LiveSessionTaskAcknowledgement.ofRow (a : LiveAcknowledgementRow) :
    LiveSessionTaskAcknowledgement :=
  { revision := a.taskRevision, state := a.state, updatedAt := a.updatedAt }

def loadCurrentTask (sessionId : Uuid) (student : Option Uuid) :
    LiveProgram (Option (LiveSessionTask × Option LiveSessionTaskAcknowledgement)) :=
  query fun db => (currentTask? db sessionId).map fun t =>
    (.ofRow t, (student.bind fun sid => acknowledgement? db sessionId t.revision sid).map
      LiveSessionTaskAcknowledgement.ofRow)

def withTask (session : LiveSession) (student : Option Uuid) : LiveProgram LiveSession := do
  let current ← loadCurrentTask session.id student
  let session : LiveSession := { session with
    currentTask := current.map fun c => c.1
    studentTaskState := current.bind fun c => c.2 }
  match student with
  | none => pure session
  | some student => do
    let joined ← query fun db => joined db session.id student
    pure { session with studentJoined := joined }

section Handlers
variable (env : Env)

def participantRow (sessionId studentId : Uuid) (now : Time) : LiveParticipantRow :=
  { sessionId, studentId, joinedAt := now, lastSeenAt := some now }

def join (student : CurrentUser) (req : JoinLiveSessionRequest) : LiveProgram LiveSession := do
  requireStudent student
  let code ← ofExcept (normalizeJoinCode req.code)
  let (s, c) ← queryRow (fun db => openSession? db code (env.now 0)) (.notFound "live session")
  assertEnrolled s.classroomId student.id
  execute (.join (participantRow s.id student.id (env.now 0)))
  withTask (sessionRow s c (env.now 1)) (some student.id)

def joinById (student : CurrentUser) (id : Uuid) : LiveProgram LiveSession := do
  requireStudent student
  let session ← loadSession id (env.now 0)
  assertEnrolled session.classroomId student.id
  require (session.endedAt = none ∧ env.now 1 < session.endsAt) .conflict
  execute (.join (participantRow id student.id (env.now 1)))
  withTask session (some student.id)

def completedBefore (current : Option (LiveSessionTask × Option LiveSessionTaskAcknowledgement))
    (state : LiveSessionTaskState) : Option LiveSessionTaskAcknowledgement :=
  (current.bind fun c => c.2).filter fun a => a.state = .completed && state ≠ .completed

def acknowledgeTask (student : CurrentUser) (id : Uuid)
    (req : AcknowledgeLiveSessionTaskRequest) : LiveProgram LiveSessionTaskAcknowledgement := do
  requireStudent student
  let session ← loadSession id (env.now 0)
  assertEnrolled session.classroomId student.id
  require (session.endedAt = none ∧ env.now 1 < session.endsAt) .conflict
  let joined ← query fun db => joined db id student.id
  require (joined = true) .forbidden
  let latest ← query fun db => latestRevision db id
  require (latest = some req.revision) .conflict
  let current ← loadCurrentTask id (some student.id)
  match completedBefore current req.state with
  | some acknowledgement => pure acknowledgement
  | none => do
    execute (.acknowledge
      { sessionId := id, taskRevision := req.revision, studentId := student.id
        state := req.state, updatedAt := env.now 2 })
    execute (.taskEvent
      { sessionId := id, taskRevision := req.revision, studentId := student.id
        state := req.state, createdAt := env.now 2 })
    let current ← loadCurrentTask id (some student.id)
    match current.bind fun c => c.2 with
    | some acknowledgement => pure acknowledgement
    | none => .fail (.notFound "task acknowledgement")

/-- The student has joined the session, is enrolled in its classroom, and the
classroom is not archived. -/
def joinedAndEnrolled (db : Database) (sessionId studentId : Uuid) : Bool :=
  db.liveModuleParticipants.rows.any fun p =>
    p.sessionId = sessionId && p.studentId = studentId &&
      db.liveModuleSessions.rows.any fun s => s.id = p.sessionId &&
        (db.classrooms.rows.any fun c => c.id = s.classroomId && c.archivedAt.isNone) &&
        enrolled db s.classroomId p.studentId

def submitResult (student : CurrentUser) (id : Uuid) (req : SubmitLiveSessionResultRequest) :
    LiveProgram LiveSessionResult := do
  requireStudent student
  require (0 ≤ req.score ∧ req.score ≤ 100) (.badRequest "Score must be between 0 and 100.")
  let session ← loadSession id (env.now 0)
  require (session.endedAt = none ∧ env.now 1 < session.endsAt) .conflict
  require (req.elapsedSeconds ≤ session.durationMinutes*60)
    (.badRequest "Elapsed time cannot exceed the session duration.")
  let admitted ← query fun db => joinedAndEnrolled db id student.id
  require (admitted = true) .forbidden
  let taskRevision ← query fun db => latestRevision db id
  let inserted ← executeReturning
    (.result
      { sessionId := id, studentId := student.id, score := req.score
        elapsedSeconds := req.elapsedSeconds, submittedAt := env.now 1, taskRevision })
    fun db => !resultStored db id student.id
  require (inserted = true) .conflict
  pure {
    score := req.score, elapsedSeconds := req.elapsedSeconds, taskRevision
    submittedAt := env.now 1 }

end Handlers

end Cinder.LiveSessions
