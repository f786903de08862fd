import Cinder.LiveSessions.LiveHandlers
import Cinder.Library.LibraryReads
set_option autoImplicit false

namespace Cinder.LiveSessions
open Cinder.Host Cinder.Storage Cinder.Programs Cinder.Programs.Program
open Cinder.Library (LibraryTables ensure ensure_ok trashed)

structure StartLiveSessionRequest where
  classroomId : Uuid
  moduleId : String
  moduleName : String
  durationMinutes : Nat
  deriving DecidableEq, Repr

structure AssignLiveSessionTaskRequest where
  kind : LiveSessionTaskKind
  targetId : Option Uuid
  title : String
  instructions : String
  deriving DecidableEq, Repr

structure LiveSessionHistoryItem where
  session : LiveSession
  participantCount : Nat
  completedCount : Nat
  deriving DecidableEq, Repr

/-- The tables and the last reading of the clock. -/
structure LiveStore where
  lib : LibraryTables
  clock : Time

def LiveStore.withSchool (s : LiveStore) (school : Database) : LiveStore :=
  { s with lib := { s.lib with school } }

@[simp] theorem LiveStore.withSchool_school (s : LiveStore) (school : Database) :
    (s.withSchool school).lib.school = school := rfl

@[simp] theorem LiveStore.withSchool_clock (s : LiveStore) (school : Database) :
    (s.withSchool school).clock = s.clock := rfl

/-- A session to be stored; its code is the first free one of those drawn. -/
structure NewLiveSession where
  id : Uuid
  classroomId : Uuid
  moduleId : String
  moduleName : String
  durationMinutes : Nat
  startsAt : Time
  codes : List String
  deriving DecidableEq, Repr

structure NewLiveTask where
  id : Uuid
  sessionId : Uuid
  kind : LiveSessionTaskKind
  targetId : Option Uuid
  title : String
  instructions : String
  createdAt : Time
  deriving DecidableEq, Repr

def NewLiveSession.row (new : NewLiveSession) (joinCode : String) : LiveSessionRow :=
  { id := new.id, classroomId := new.classroomId, moduleId := new.moduleId
    moduleName := new.moduleName, durationMinutes := new.durationMinutes, joinCode
    startsAt := new.startsAt, endsAt := new.startsAt+minutes new.durationMinutes }

def NewLiveTask.row (new : NewLiveTask) (revision : Nat) : LiveTaskRow :=
  { id := new.id, sessionId := new.sessionId, revision, kind := new.kind
    targetId := new.targetId, title := new.title, instructions := new.instructions
    createdAt := new.createdAt }

/-! The assignments of the `UPDATE` statements. -/

/-- `SET ended_at = ends_at`. -/
def endNaturally (s : LiveSessionRow) : LiveSessionRow := { s with endedAt := some s.endsAt }

/-- `SET ended_at = coalesce(ended_at, now)`. -/
def endAt (now : Time) (s : LiveSessionRow) : LiveSessionRow :=
  { s with endedAt := s.endedAt.or (some now) }

def seenAt (now : Time) (p : LiveParticipantRow) : LiveParticipantRow :=
  { p with lastSeenAt := some now }

theorem ended_frees {f : LiveSessionRow → LiveSessionRow} (hid : ∀ s, (f s).id = s.id)
    (hcode : ∀ s, (f s).joinCode = s.joinCode) (hended : ∀ s, (f s).endedAt.isNone = false) :
    Table.FreesKeys f := by
  intro r r' h
  simp only [Keyed.clash, hid, hcode, hended, Bool.and_false, Bool.false_and, Bool.or_false] at h
  simp only [Keyed.clash, h, Bool.true_or]

theorem endNaturally_frees : Table.FreesKeys endNaturally :=
  ended_frees (fun _ => rfl) (fun _ => rfl) fun _ => rfl

theorem endAt_frees (now : Time) : Table.FreesKeys (endAt now) :=
  ended_frees (fun _ => rfl) (fun _ => rfl) fun s => by cases h : s.endedAt <;> simp [endAt, h]

theorem seenAt_keeps (now : Time) : Table.KeepsKeys (seenAt now) := fun _ _ => rfl

def randomJoinCode (sessions : Table LiveSessionRow) (codes : List String) :
    Except HostError String :=
  match (codes.take 20).find? fun code =>
    !sessions.rows.any fun s => lower s.joinCode = lower code with
  | some code => .ok code
  | none => .error (.other "could not generate a unique live session code")

def expired (classroomId : Uuid) (now : Time) (s : LiveSessionRow) : Bool :=
  s.classroomId = classroomId && s.endedAt.isNone && julianday s.endsAt ≤ julianday now

/-- The transaction of `start`: it closes what has run out before it inserts. -/
def startTx (new : NewLiveSession) (db : Database) : Except HostError Database := do
  let sessions := db.liveModuleSessions.release (expired new.classroomId new.startsAt)
    endNaturally endNaturally_frees
  ensure (!sessions.rows.any fun s => s.classroomId = new.classroomId && s.endedAt.isNone) .conflict
  let joinCode ← randomJoinCode sessions new.codes
  referenced (classroom? db new.classroomId).isSome
  let sessions ← stored (sessions.insert (new.row joinCode))
  .ok { db with liveModuleSessions := sessions }

/-- The transaction of `assign_task`. -/
def assignTx (new : NewLiveTask) (db : Database) : Except HostError Database := do
  referenced (liveSession? db new.sessionId).isSome
  let tasks ← stored (db.liveSessionTasks.insert
    (new.row ((latestRevision db new.sessionId).getD 0+1)))
  .ok { db with liveSessionTasks := tasks }

/-- A participation that a heartbeat of the student renews: in any open session of
the classroom, or in every session that is still running. -/
def renewed (db : Database) (studentId : Uuid) (classroomId : Option Uuid) (now : Time)
    (p : LiveParticipantRow) : Bool :=
  p.studentId = studentId && db.liveModuleSessions.rows.any fun s =>
    s.id = p.sessionId && s.endedAt.isNone && match classroomId with
      | some classroomId => s.classroomId = classroomId
      | none => decide (julianday now < julianday s.endsAt)

inductive SessionStatement where
  | student (l : LiveStatement)
  | start (new : NewLiveSession)
  | assign (new : NewLiveTask)
  | endSession (id : Uuid) (now : Time)
  | seen (studentId : Uuid) (classroomId : Option Uuid) (now : Time)
  deriving DecidableEq, Repr

def SessionStatement.run : SessionStatement → Database → Except HostError Database
  | .student l, db => l.run db
  | .start new, db => startTx new db
  | .assign new, db => assignTx new db
  | .endSession id now, db => .ok { db with
      liveModuleSessions := db.liveModuleSessions.release (fun s => s.id = id) (endAt now)
        (endAt_frees now) }
  | .seen studentId classroomId now, db => .ok { db with
      liveModuleParticipants := db.liveModuleParticipants.update
        (renewed db studentId classroomId now) (seenAt now) (seenAt_keeps now) }

/-- `utcNow` is a reading of the clock that a later reading is compared with. -/
inductive LiveStoreStatement where
  | utcNow (now : Time)
  | school (l : SessionStatement)
  deriving DecidableEq, Repr

def LiveStoreStatement.run : LiveStoreStatement → LiveStore → Except HostError LiveStore
  | .utcNow now, s => .ok { s with clock := now }
  | .school l, s => (l.run s.lib.school).map s.withSchool

instance : Engine LiveStore LiveStoreStatement HostError := ⟨LiveStoreStatement.run⟩

abbrev SessionProgram := Program LiveStore LiveStoreStatement HostError

section Lift
variable {α : Type}

def onSchool (p : Program Database SessionStatement HostError α) : SessionProgram α :=
  p.within (·.lib.school) .school

def ofStudent (p : LiveProgram α) : SessionProgram α :=
  p.within (·.lib.school) fun l => .school (.student l)

end Lift

def validateModule (id name : String) : Except HostError Unit := do
  ensure (trim id != "" && charCount id ≤ 100)
    (.badRequest "Module id must contain between 1 and 100 characters.")
  ensure (trim name != "" && charCount name ≤ 200)
    (.badRequest "Module name must contain between 1 and 200 characters.")

def assignmentPublished (lib : LibraryTables) (classroomId target : Uuid) : Bool :=
  lib.school.assignments.rows.any fun a =>
    a.id = target && a.classroomId = classroomId && a.status = .published

def materialShared (lib : LibraryTables) (classroomId target : Uuid) : Bool :=
  lib.nodes.rows.any fun n => n.id = target && n.classroomId = some classroomId &&
    n.kind = .pdf && n.ownerId.isNone && !trashed lib n.id

def quizDelivered (sessionId : Uuid) (lib : LibraryTables) (classroomId target : Uuid) : Bool :=
  lib.school.quizDeliveries.rows.any fun d => d.id = target && d.classroomId = classroomId &&
    d.kind = .live && d.liveSessionId = some sessionId

def requireTarget (missing wrong : String) (valid : LibraryTables → Uuid → Uuid → Bool)
    (classroomId : Uuid) (target : Option Uuid) : SessionProgram Unit :=
  match target with
  | none => .fail (.badRequest missing)
  | some target => do
    let valid ← query fun s => valid s.lib classroomId target
    require (valid = true) (.badRequest wrong)

def validateTask (sessionId classroomId : Uuid) (req : AssignLiveSessionTaskRequest) :
    SessionProgram Unit := do
  require (trim req.title ≠ "" ∧ charCount req.title ≤ 200)
    (.badRequest "Task title must contain between 1 and 200 characters.")
  require (charCount req.instructions ≤ 2000)
    (.badRequest "Task instructions cannot exceed 2,000 characters.")
  match req.kind with
  | .instruction =>
    require (req.targetId = none) (.badRequest "Written instructions cannot have a target.")
  | .assignment =>
    requireTarget "Choose an assignment." "The assignment is not published in this classroom."
      assignmentPublished classroomId req.targetId
  | .material =>
    requireTarget "Choose a material." "The material is not shared with this classroom."
      materialShared classroomId req.targetId
  | .quiz =>
    requireTarget "Choose a published quiz." "The quiz is not assigned to this live session."
      (quizDelivered sessionId) classroomId req.targetId

/-- What `load_session` and `with_task` read without a student. -/
def loadedSession (db : Database) (id : Uuid) (serverNow : Time) : Option LiveSession := do
  let s ← liveSession? db id
  let c ← classroom? db s.classroomId
  return { sessionRow s c serverNow with currentTask := (currentTask? db id).map .ofRow }

/-- A session that is shown as running: not ended, not run out, and in an active
classroom. -/
def runningSession? (db : Database) (now serverNow : Time) (s : LiveSessionRow) :
    Option LiveSession :=
  if s.endedAt.isNone && julianday now < julianday s.endsAt then
    ((classroom? db s.classroomId).filter fun c => c.archivedAt.isNone).map fun c =>
      sessionRow s c serverNow
  else none

section Handlers
variable (env : Env)

def start (codes : List String) (teacher : CurrentUser) (req : StartLiveSessionRequest) :
    SessionProgram LiveSession := do
  onSchool (requireTeacher teacher)
  ofExcept (validateModule req.moduleId req.moduleName)
  require (5 ≤ req.durationMinutes ∧ req.durationMinutes ≤ 30)
    (.badRequest "Session duration must be between 5 and 30 minutes.")
  onSchool (requireTeacherAccess req.classroomId teacher.id)
  let now := env.now 0
  execute (.utcNow now)
  let new : NewLiveSession :=
    { id := env.uuid 0, classroomId := req.classroomId, moduleId := trim req.moduleId
      moduleName := trim req.moduleName, durationMinutes := req.durationMinutes
      startsAt := now, codes }
  let session ← executeReturning (.school (.start new)) fun s =>
    (startTx new s.lib.school).toOption.bind fun db => loadedSession db new.id (env.now 1)
  ofExcept (session.elim (.error (.notFound "live session")) .ok)

/-- Who may see the running session of a classroom. To a student this is a heartbeat. -/
def admitViewer (user : CurrentUser) (classroomId : Uuid) (now : Time) : SessionProgram Unit :=
  if user.role.isTeacher then onSchool (requireTeacherAccess classroomId user.id)
  else do
    onSchool (assertEnrolled classroomId user.id)
    execute (.school (.seen user.id (some classroomId) now))

def activeForClassroom (user : CurrentUser) (classroomId : Uuid) :
    SessionProgram (Option LiveSession) := do
  let now := env.now 0
  admitViewer user classroomId now
  let session ← query fun s => (s.lib.school.liveModuleSessions.rows.filter fun r =>
    r.classroomId = classroomId).findSome? (runningSession? s.lib.school now (env.now 1))
  match session with
  | none => pure none
  | some session => do
    let session ← ofStudent (withTask session (if user.role.isTeacher then none else some user.id))
    pure (some session)

def withTasks (student : Uuid) : List LiveSession → LiveProgram (List LiveSession)
  | [] => pure []
  | session :: sessions => do
    let session ← withTask session (some student)
    let sessions ← withTasks student sessions
    pure (session :: sessions)

def startedLater (s s' : LiveSession) : Bool := s'.startsAt ≤ s.startsAt

def activeForStudent (student : CurrentUser) : SessionProgram (List LiveSession) := do
  onSchool (requireStudent student)
  let now := env.now 0
  execute (.school (.seen student.id none now))
  let sessions ← query fun s => ((s.lib.school.liveModuleSessions.rows.filter fun r =>
    enrolled s.lib.school r.classroomId student.id).filterMap
      (runningSession? s.lib.school now (env.now 1))).mergeSort startedLater
  ofStudent (withTasks student.id sessions)

def assignTask (teacher : CurrentUser) (id : Uuid) (req : AssignLiveSessionTaskRequest) :
    SessionProgram LiveSessionTask := do
  onSchool (requireTeacher teacher)
  let session ← ofStudent (loadSession id (env.now 0))
  onSchool (requireTeacherAccess session.classroomId teacher.id)
  require (session.endedAt = none ∧ env.now 1 < session.endsAt) .conflict
  validateTask session.id session.classroomId req
  let new : NewLiveTask :=
    { id := env.uuid 0, sessionId := id, kind := req.kind, targetId := req.targetId
      title := trim req.title, instructions := trim req.instructions, createdAt := env.now 2 }
  let task ← executeReturning (.school (.assign new)) fun s =>
    (assignTx new s.lib.school).toOption.bind fun db => currentTask? db id
  ofExcept (task.elim (.error (.notFound "live task")) fun t => .ok (.ofRow t))

def endSession (teacher : CurrentUser) (id : Uuid) : SessionProgram LiveSession := do
  onSchool (requireTeacher teacher)
  let session ← ofStudent (loadSession id (env.now 0))
  onSchool (requireTeacherAccess session.classroomId teacher.id)
  execute (.utcNow (env.now 1))
  execute (.school (.endSession id (env.now 1)))
  ofStudent (loadSession id (env.now 2))

end Handlers

/-! `session_history`. -/

def participantCount (db : Database) (id : Uuid) : Nat :=
  (db.liveModuleParticipants.rows.filter fun p => p.sessionId = id).length

def completedCount (db : Database) (id : Uuid) : Nat :=
  (db.liveSessionTaskAcknowledgements.rows.filter fun a => a.sessionId = id &&
    a.state = .completed && some a.taskRevision = latestRevision db id).length

/-- `try_into().unwrap_or(u32::MAX)`. -/
def asU32 (n : Nat) : Nat := min n 4294967295

def historyRow? (db : Database) (serverNow : Time) (s : LiveSessionRow) :
    Option LiveSessionHistoryItem :=
  (classroom? db s.classroomId).map fun c =>
    { session := sessionRow s c serverNow
      participantCount := asU32 (participantCount db s.id)
      completedCount := asU32 (completedCount db s.id) }

def historyItems : List LiveSessionHistoryItem → LiveProgram (List LiveSessionHistoryItem)
  | [] => pure []
  | item :: items => do
    let session ← withTask item.session none
    let items ← historyItems items
    pure ({ item with session } :: items)

def sessionHistory (env : Env) (teacher : CurrentUser) (classroomId : Uuid) :
    SessionProgram (List LiveSessionHistoryItem) := do
  onSchool (requireTeacher teacher)
  onSchool (requireTeacherAccess classroomId teacher.id)
  let rows ← query fun s => (((s.lib.school.liveModuleSessions.rows.filter fun r =>
    r.classroomId = classroomId).filterMap (historyRow? s.lib.school (env.now 0))).mergeSort
      fun x y => startedLater x.session y.session).take 30
  ofStudent (historyItems rows)

inductive LiveRequest where
  | start (codes : List String) (req : StartLiveSessionRequest)
  | activeForClassroom (classroomId : Uuid)
  | activeForStudent
  | join (req : JoinLiveSessionRequest)
  | joinById (id : Uuid)
  | assignTask (id : Uuid) (req : AssignLiveSessionTaskRequest)
  | acknowledgeTask (id : Uuid) (req : AcknowledgeLiveSessionTaskRequest)
  | submitResult (id : Uuid) (req : SubmitLiveSessionResultRequest)
  | sessionHistory (classroomId : Uuid)
  | endSession (id : Uuid)
  deriving DecidableEq, Repr

/-- A request with its caller and its readings of the clock and of fresh ids. -/
structure LiveCall where
  env : Env
  user : CurrentUser
  request : LiveRequest

inductive LiveReply where
  | sessions (sessions : List LiveSession)
  | task (task : LiveSessionTask)
  | acknowledgement (acknowledgement : LiveSessionTaskAcknowledgement)
  | result (result : LiveSessionResult)
  | history (items : List LiveSessionHistoryItem)
  deriving DecidableEq, Repr

section Reply
variable {α : Type}

def replying (f : α → LiveReply) (p : SessionProgram α) : SessionProgram LiveReply :=
  p >>= fun a => pure (f a)

end Reply

def handle (c : LiveCall) : SessionProgram LiveReply :=
  match c.request with
  | .start codes req => replying (.sessions [·]) (start c.env codes c.user req)
  | .activeForClassroom id =>
    replying (.sessions ·.toList) (activeForClassroom c.env c.user id)
  | .activeForStudent => replying .sessions (activeForStudent c.env c.user)
  | .join req => replying (.sessions [·]) (ofStudent (join c.env c.user req))
  | .joinById id => replying (.sessions [·]) (ofStudent (joinById c.env c.user id))
  | .assignTask id req => replying .task (assignTask c.env c.user id req)
  | .acknowledgeTask id req =>
    replying .acknowledgement (ofStudent (acknowledgeTask c.env c.user id req))
  | .submitResult id req => replying .result (ofStudent (submitResult c.env c.user id req))
  | .sessionHistory id => replying .history (sessionHistory c.env c.user id)
  | .endSession id => replying (.sessions [·]) (endSession c.env c.user id)

abbrev LivePool (ι : Type) := Pool ι LiveCall LiveStore LiveStoreStatement HostError LiveReply

abbrev LiveWorld (ι : Type) := World ι LiveStore LiveStoreStatement

end Cinder.LiveSessions
