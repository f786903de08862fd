import Cinder.Accounts.AccountEffects
import Cinder.Programs.SerialRuns
set_option autoImplicit false

/-!
Classrooms and who owns them: the classroom routes, the deletion of a teacher,
and the Host console's command that disables a person.
-/

namespace Cinder.Classrooms
open Cinder.Host Cinder.Storage Cinder.Programs Cinder.Programs.Program Cinder.Accounts

/-- The request of `create` and of `update`. -/
structure CreateClassroomRequest where
  name : String
  subjectCode : Option String
  description : String
  color : String
  deriving DecidableEq, Repr

structure DeleteTeacherRequest where
  currentPassword : String
  deriving DecidableEq, Repr

structure Classroom where
  id : Uuid
  name : String
  subjectCode : Option String
  description : String
  color : String
  ownerTeacherId : Uuid
  ownerTeacherName : String
  enrolmentCode : String
  createdAt : Time
  studentCount : Nat
  deriving DecidableEq, Repr

def isHexDigit (x : Char) : Bool :=
  x.isDigit || ('a' ≤ x && x ≤ 'f') || ('A' ≤ x && x ≤ 'F')

def normalizeColor (raw : String) : Except HostError String :=
  let value := trim raw
  if value.utf8ByteSize = 7 ∧ value.toList.head? = some '#' ∧
      value.toList.tail.all isHexDigit = true then .ok (upper value)
  else .error (.badRequest "Classroom color must be a six-digit hex color.")

section Rows
variable (db : Database)

def ownsClassrooms (id : Uuid) : Bool :=
  db.classrooms.rows.any fun k => k.ownerTeacherId = id && k.archivedAt.isNone

def classroomRow? (id : Uuid) : Option Classroom := do
  let k ← db.classrooms.find? fun k => k.id = id && k.archivedAt.isNone
  let owner ← user? db k.ownerTeacherId
  some { id := k.id, name := k.name, subjectCode := k.subjectCode, description := k.description
         color := k.color, ownerTeacherId := k.ownerTeacherId
         ownerTeacherName := owner.displayName, enrolmentCode := k.enrolmentCode
         createdAt := k.createdAt
         studentCount := db.classroomEnrolments.rows.countP fun e => e.classroomId = id }

end Rows

/-- The statements of the account routes, and those on classrooms and on who
may own them. -/
inductive ClassroomStatement (c : Crypto) where
  | account (l : AccountStatement c)
  | createClassroom (row : ClassroomRow)
  | updateClassroom (id : Uuid) (name : String) (subjectCode : Option String)
      (description color : String)
  | archiveClassroom (id : Uuid) (now : Time)
  | disableTeacher (id : Uuid) (now : Time)
  | setPersonDisabled (id : Uuid) (disabled : Bool) (transferTo : Option Uuid)

/-! The assignments of the `UPDATE` statements. None touches a key. -/

section Assignments

def describe (name : String) (subjectCode : Option String) (description color : String)
    (k : ClassroomRow) : ClassroomRow :=
  { k with name, subjectCode, description, color }

def archiveAt (now : Time) (k : ClassroomRow) : ClassroomRow := { k with archivedAt := some now }

def closeAssignment (a : AssignmentRow) : AssignmentRow := { a with status := .closed }

def setDisabled (disabledAt : Option Time) (u : UserRow) : UserRow := { u with disabledAt }

theorem describe_keeps (name : String) (subjectCode : Option String) (description color : String) :
    Table.KeepsKeys (describe name subjectCode description color) := fun _ _ => rfl

theorem archiveAt_keeps (now : Time) : Table.KeepsKeys (archiveAt now) := fun _ _ => rfl

theorem closeAssignment_keeps : Table.KeepsKeys closeAssignment := fun _ _ => rfl

theorem setDisabled_keeps (disabledAt : Option Time) : Table.KeepsKeys (setDisabled disabledAt) :=
  fun _ _ => rfl

end Assignments

/-- The classrooms once a person who is about to be disabled has handed them
over. Archived ones go along, but do not ask for a transfer. -/
def handOver (db : Database) (id : Uuid) (transferTo : Option Uuid) :
    Except HostError (Table ClassroomRow) :=
  if ownsClassrooms db id = false then .ok db.classrooms
  else match transferTo with
    | none => .error (.other "Transfer this teacher's classrooms before disabling the account.")
    | some target =>
      if db.users.rows.any (fun u => u.id = target && activeTeacher u) then
        .ok (db.classrooms.update (fun k => k.ownerTeacherId = id) (adopt target)
          (adopt_keeps target))
      else .error (.other "Choose an active teacher for the transfer.")

/-- The sessions of the account end with it; its invitations do not. -/
def setPersonDisabledTx (id : Uuid) (disabled : Bool) (transferTo : Option Uuid) (s : AuthState) :
    Except HostError AuthState :=
  if disabled then do
    let classrooms ← handOver s.db id transferTo
    .ok { s with db := { s.db with
      classrooms
      users := s.db.users.update (fun u => u.id = id) (setDisabled (some s.clock))
        (setDisabled_keeps _)
      sessions := s.db.sessions.delete fun r => r.userId = id } }
  else .ok (s.updateUser id (setDisabled none) (setDisabled_keeps none))

def isTeacherEnabled (id : Uuid) (u : UserRow) : Bool := u.id = id && activeTeacher u

def disableTeacherTx (id : Uuid) (now : Time) (s : AuthState) : Except HostError AuthState :=
  if s.db.users.rows.any (isTeacherEnabled id) = false then .error (.notFound "teacher")
  else .ok { s with db := { s.db with
    users := s.db.users.update (isTeacherEnabled id) (setDisabled (some now))
      (setDisabled_keeps _)
    sessions := s.db.sessions.delete fun r => r.userId = id
    teacherInvitePin := s.db.teacherInvitePin.filter fun row => row.createdBy ≠ some id } }

def ClassroomStatement.run {c : Crypto} : ClassroomStatement c → AuthState →
    Except HostError AuthState
  | .account l, s => l.run s
  | .createClassroom row, s =>
    if (user? s.db row.ownerTeacherId).isSome = false then
      .error (.database .constraintViolation)
    else do
      let classrooms ← stored (s.db.classrooms.insert row)
      .ok { s with db := { s.db with classrooms } }
  | .updateClassroom id name subjectCode description color, s =>
    .ok { s with db := { s.db with
      classrooms := s.db.classrooms.update (fun k => k.id = id && k.archivedAt.isNone)
        (describe name subjectCode description color) (describe_keeps _ _ _ _) } }
  | .archiveClassroom id now, s =>
    .ok { s with db := { s.db with
      classrooms := s.db.classrooms.update (fun k => k.id = id && k.archivedAt.isNone)
        (archiveAt now) (archiveAt_keeps now)
      assignments := s.db.assignments.update (fun a => a.classroomId = id) closeAssignment
        closeAssignment_keeps } }
  | .disableTeacher id now, s => disableTeacherTx id now s
  | .setPersonDisabled id disabled transferTo, s => setPersonDisabledTx id disabled transferTo s

instance (c : Crypto) : Engine AuthState (ClassroomStatement c) HostError :=
  ⟨ClassroomStatement.run⟩

abbrev ClassroomProgram (c : Crypto) := Program AuthState (ClassroomStatement c) HostError

section Handlers
variable (c : Crypto)

def utcNow : ClassroomProgram c Time := query fun s => s.clock

def loadClassroom (id : Uuid) : ClassroomProgram c Classroom :=
  queryRow (fun s => classroomRow? s.db id) (.notFound "classroom")

def requireTeacherCaller (caller : SessionCaller) : ClassroomProgram c Unit :=
  require (caller.user.role.isTeacher = true) .forbidden

def requireTeacherAccess (id teacherId : Uuid) : ClassroomProgram c Unit := do
  let access ← query fun s => teacherCanAccess s.db id teacherId
  require (access = true) .forbidden

def requireClassroomOwner (id teacherId : Uuid) : ClassroomProgram c Unit := do
  let owned ← query fun s => s.db.classrooms.rows.any fun k =>
    k.id = id && k.ownerTeacherId = teacherId && k.archivedAt.isNone
  require (owned = true) .forbidden

/-- Codes are drawn until one is free, with `left` draws to go. -/
def randomClassroomCode (codes : Nat → String) : Nat → ClassroomProgram c String
  | 0 => .fail (.other "could not generate a unique classroom code")
  | left+1 => do
    let taken ← query fun s => s.db.classrooms.rows.any fun k =>
      lower k.enrolmentCode = lower (codes left)
    if taken then randomClassroomCode codes left else pure (codes left)

def create (random : Random) (codes : Nat → String) (caller : SessionCaller)
    (req : CreateClassroomRequest) : ClassroomProgram c Classroom := do
  requireTeacherCaller c caller
  require (trim req.name ≠ "") (.badRequest "Classroom name is required.")
  let color ← ofExcept (normalizeColor req.color)
  let time ← utcNow c
  let enrolmentCode ← randomClassroomCode c codes 20
  execute (.createClassroom
    { id := random.uuid, name := trim req.name, subjectCode := req.subjectCode.map trim
      description := trim req.description, color, ownerTeacherId := caller.user.id
      enrolmentCode, createdAt := time })
  loadClassroom c random.uuid

/-- Unlike `create`, this drops an empty subject code. -/
def update (caller : SessionCaller) (id : Uuid) (req : CreateClassroomRequest) :
    ClassroomProgram c Classroom := do
  requireTeacherCaller c caller
  requireTeacherAccess c id caller.user.id
  require (trim req.name ≠ "") (.badRequest "Classroom name is required.")
  let color ← ofExcept (normalizeColor req.color)
  execute (.updateClassroom id (trim req.name)
    ((req.subjectCode.map trim).filter fun value => value ≠ "") (trim req.description) color)
  loadClassroom c id

def archive (caller : SessionCaller) (id : Uuid) : ClassroomProgram c Unit := do
  requireTeacherCaller c caller
  requireClassroomOwner c id caller.user.id
  let time ← utcNow c
  execute (.archiveClassroom id time)

/-- A teacher deletes nobody else's account, and not while any classroom,
archived or not, is theirs. -/
def deleteTeacher (caller : SessionCaller) (id : Uuid) (req : DeleteTeacherRequest) :
    ClassroomProgram c Bool := do
  requireTeacherCaller c caller
  require (id = caller.user.id) .forbidden
  let actorHash ← queryRow (fun s => (s.db.users.find? (isTeacherEnabled caller.user.id)).map
    fun u => u.pwHash) (.database .queryReturnedNoRows)
  require (verifyPassword c actorHash req.currentPassword = true) .badCredentials
  let owned ← query fun s => s.db.classrooms.rows.any fun k => k.ownerTeacherId = caller.user.id
  require (owned = false) (.badRequest ("Archive history still belongs to this teacher. " ++
    "Classroom ownership must be resolved before disabling the account."))
  let time ← utcNow c
  execute (.disableTeacher id time)
  pure (id = caller.user.id)

end Handlers

inductive ClassroomReply where
  | account (reply : AccountReply)
  | classroom (classroom : Classroom)
  | deleted (deletedCurrent : Bool)
  | ok
  deriving DecidableEq, Repr

/-- `setPersonDisabled` is a command of the Host console; `authorised` is what
the check of the console's session came to. -/
inductive ClassroomRequest (c : Crypto) where
  | account (request : AccountRequest c)
  | create (token : String) (req : CreateClassroomRequest)
  | update (token : String) (id : Uuid) (req : CreateClassroomRequest)
  | archive (token : String) (id : Uuid)
  | deleteTeacher (token : String) (id : Uuid) (req : DeleteTeacherRequest)
  | setPersonDisabled (authorised : Except HostError Unit) (id : Uuid) (disabled : Bool)
      (transferTo : Option Uuid)

structure ClassroomCall (c : Crypto) where
  random : Random
  codes : Nat → String
  request : ClassroomRequest c

def signedIn (c : Crypto) (token : String) : ClassroomProgram c SessionCaller :=
  (currentUser c token false).relabel .account

def handle (c : Crypto) (call : ClassroomCall c) : ClassroomProgram c ClassroomReply :=
  match call.request with
  | .account request => do
    let reply ← (Cinder.Accounts.handle c ⟨call.random, request⟩).relabel .account
    pure (.account reply)
  | .create token req => do
    let caller ← signedIn c token
    let classroom ← create c call.random call.codes caller req
    pure (.classroom classroom)
  | .update token id req => do
    let caller ← signedIn c token
    let classroom ← update c caller id req
    pure (.classroom classroom)
  | .archive token id => do
    let caller ← signedIn c token
    archive c caller id
    pure .ok
  | .deleteTeacher token id req => do
    let caller ← signedIn c token
    let deletedCurrent ← deleteTeacher c caller id req
    pure (.deleted deletedCurrent)
  | .setPersonDisabled authorised id disabled transferTo => do
    ofExcept authorised
    execute (.setPersonDisabled id disabled transferTo)
    pure .ok

end Cinder.Classrooms
