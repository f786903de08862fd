import Cinder.Accounts.AccountRecords
set_option autoImplicit false

/-!
What each statement does to the database. The transactions of `bootstrap`,
`register_teacher` and `reset_student_credentials` read and check in one step
with their writes.
-/

namespace Cinder.Accounts
open Cinder.Host Cinder.Storage Cinder.Programs

def activeTeacher (u : UserRow) : Bool := u.role = .teacher && u.disabledAt.isNone

def validateIdentity (username displayName : String) : Except HostError Unit :=
  if username = "" ∨ displayName = "" then
    .error (.badRequest "Username and name are required.")
  else if (username.toList.all fun x => x.isAlphanum || x = '.' || x = '_' || x = '-') = false then
    .error (.badRequest
      "Username can only contain letters, numbers, dots, dashes, and underscores.")
  else if 64 < charCount username then
    .error (.badRequest "Username must be 64 characters or fewer.")
  else if 120 < charCount displayName then
    .error (.badRequest "Name must be 120 characters or fewer.")
  else .ok ()

def cleanOptional (value : Option String) (label : String) : Except HostError (Option String) :=
  let value := (value.map trim).filter fun item => item ≠ ""
  if value.any fun item => 80 < charCount item then
    .error (.badRequest s!"{label} must be 80 characters or fewer.")
  else .ok value

section Transactions
variable (c : Crypto)

def insertUser (users : Table UserRow) (random : Random) (now : Time)
    (username displayName password : String) (role : Role)
    (gradeLevel section_ rollNumber : Option String) (mustChangePassword : Bool) :
    Except HostError (User × Table UserRow) := do
  validateIdentity (trim username) (trim displayName)
  let pwHash ← (if role = .student ∧ mustChangePassword = true then
      hashTemporaryPin c (random.salt 0) password
    else hashPassword c (random.salt 0) password)
  let gradeLevel ← cleanOptional gradeLevel "Grade level"
  let section_ ← cleanOptional section_ "Section"
  let rollNumber ← cleanOptional rollNumber "Roll number"
  let row : UserRow :=
    { id := random.uuid, username := trim username, displayName := trim displayName, pwHash, role
      createdAt := now, gradeLevel, section_, rollNumber, mustChangePassword }
  match users.insert row with
  | some users => .ok (User.ofRow row, users)
  | none => .error (.badRequest s!"The username \"{trim username}\" is already taken.")

/-- The verdict on a submitted PIN, and the row with its attempts counted. -/
def verifyLimitedPin (pin : Option PinRow) (submitted : String) (now : Time) :
    Except HostError Unit × Option PinRow :=
  match pin with
  | none => (.error .badCredentials, none)
  | some row =>
    if row.blockedUntil.any fun t => now < t then (.error .rateLimited, pin)
    else if row.expiresAt ≤ now then (.error .badCredentials, pin)
    else if submitted.utf8ByteSize = 8 ∧ asciiDigits submitted = true ∧
        verifyPassword c row.pinHash submitted = true then (.ok (), pin)
    else if maxPinAttempts ≤ row.failedAttempts+1 then
      (.error .rateLimited, some { row with
        failedAttempts := 0, blockedUntil := some (now+minutes pinBlockMinutes) })
    else
      (.error .badCredentials, some { row with
        failedAttempts := row.failedAttempts+1, blockedUntil := none })

/-- A refused PIN is answered with an error, but its attempt is committed. -/
def bootstrapTx (random : Random) (req : BootstrapTeacherRequest) (s : AuthState) :
    Except HostError (Except HostError BootstrapTeacherResponse × AuthState) :=
  if s.db.users.rows.any activeTeacher then .error .forbidden
  else match verifyLimitedPin c s.db.schoolBootstrapPin req.bootstrapPin s.clock with
    | (.error e, pin) => .ok (.error e, { s with db := { s.db with schoolBootstrapPin := pin } })
    | (.ok _, _) => do
      let (user, users) ← insertUser c s.db.users random s.clock req.username req.displayName
        req.password .teacher none none none false
      let recoveryHash ← hashPassword c (random.salt 1) random.recoveryCode
      let teacherRecovery ← stored (s.db.teacherRecovery.insert
        { userId := user.id, recoveryHash, createdAt := s.clock })
      .ok (.ok { user, recoveryCode := random.recoveryCode }, { s with
        db := { s.db with
          users, teacherRecovery, schoolBootstrapPin := none
          classrooms := s.db.classrooms.update
            (fun k => !users.rows.any fun o => o.id = k.ownerTeacherId && activeTeacher o)
            (adopt user.id) (adopt_keeps user.id) } })

/-- An invitation whose creator is no active teacher is withdrawn. -/
def registerTeacherTx (random : Random) (req : RegisterTeacherRequest) (s : AuthState) :
    Except HostError (Except HostError BootstrapTeacherResponse × AuthState) :=
  match verifyLimitedPin c s.db.teacherInvitePin req.invitePin s.clock with
  | (.error e, pin) => .ok (.error e, { s with db := { s.db with teacherInvitePin := pin } })
  | (.ok _, pin) =>
    if (s.db.users.rows.any fun u =>
        activeTeacher u && pin.any fun row => row.createdBy = some u.id) = false then
      .ok (.error .badCredentials, { s with db := { s.db with teacherInvitePin := none } })
    else do
      let (user, users) ← insertUser c s.db.users random s.clock req.username req.displayName
        req.password .teacher none none none false
      let recoveryHash ← hashPassword c (random.salt 1) random.recoveryCode
      let teacherRecovery ← stored (s.db.teacherRecovery.insert
        { userId := user.id, recoveryHash, createdAt := s.clock })
      .ok (.ok { user, recoveryCode := random.recoveryCode },
        { s with db := { s.db with users, teacherRecovery, teacherInvitePin := none } })

/-- The student has a class of the teacher, and no other. -/
def studentManagementAccess (db : Database) (student teacher : Uuid) : Bool :=
  let classes := db.classrooms.rows.filter fun k =>
    k.archivedAt.isNone && db.classroomEnrolments.rows.any fun e =>
      e.studentId = student && e.classroomId = k.id
  (classes.any fun k => teaches db k teacher) && classes.all fun k => teaches db k teacher

def userNow? (users : Table UserRow) (id : Uuid) : Except HostError User :=
  match users.find? fun u => u.id = id with
  | some u => .ok (User.ofRow u)
  | none => .error (.notFound "user")

def resetStudentTx (random : Random) (student teacher : Uuid) (s : AuthState) :
    Except HostError (CreateStudentResponse × AuthState) := do
  if studentManagementAccess s.db student teacher = false then .error .forbidden
  let user ← userNow? s.db.users student
  if user.role ≠ .student then
    .error (.badRequest "Only student credentials can be reset here.")
  let pwHash ← hashTemporaryPin c (random.salt 0) random.pin
  let recoveryHash ← hashPassword c (random.salt 1) random.recoveryCode
  let users := s.db.users.update (fun u => u.id = student) (setHash pwHash true)
    (setHash_keeps pwHash true)
  let studentRecovery ← stored (s.db.studentRecovery.upsert (fun r => r.userId = student)
    (rotate recoveryHash s.clock) (rotate_keeps recoveryHash s.clock)
    { userId := student, recoveryHash, createdAt := s.clock, rotatedAt := some s.clock })
  let user ← userNow? users student
  .ok ({ user, temporaryPassword := random.pin, recoveryCode := random.recoveryCode }, { s with
    db := { s.db with
      users, studentRecovery, sessions := s.db.sessions.delete fun r => r.userId = student } })

end Transactions

def AuthState.updateUser (s : AuthState) (id : Uuid) (f : UserRow → UserRow)
    (hf : Table.KeepsKeys f) : AuthState :=
  { s with db := { s.db with users := s.db.users.update (fun u => u.id = id) f hf } }

def AuthState.dropSessions (s : AuthState) (p : SessionRow → Bool) : AuthState :=
  { s with db := { s.db with sessions := s.db.sessions.delete p } }

def AuthState.rotateRecovery (s : AuthState) (role : Role) (id : Uuid) (hash : String)
    (now : Time) : AuthState :=
  match role with
  | .teacher => { s with db := { s.db with
      teacherRecovery := s.db.teacherRecovery.update (fun r => r.userId = id) (rotate hash now)
        (rotate_keeps hash now) } }
  | .student => { s with db := { s.db with
      studentRecovery := s.db.studentRecovery.update (fun r => r.userId = id) (rotate hash now)
        (rotate_keeps hash now) } }

def AccountStatement.run {c : Crypto} : AccountStatement c → AuthState →
    Except HostError AuthState
  | .tick elapsed, s => .ok { s with clock := s.clock+elapsed }
  | .compare _ _ _ _, s => .ok s
  | .recordFailure user attempts, s =>
    .ok (s.updateUser user (countFailure attempts) (countFailure_keeps attempts))
  | .blockLogin user blockedUntil, s =>
    .ok (s.updateUser user (setAttempts 0 (some blockedUntil)) (setAttempts_keeps 0 _))
  | .recordSuccess user, s =>
    .ok (s.updateUser user (setAttempts 0 none) (setAttempts_keeps 0 none))
  | .insertSession row _, s => do
    let sessions ← stored (s.db.sessions.insert row)
    .ok { s with db := { s.db with sessions } }
  | .deleteExpired now, s => .ok (s.dropSessions fun r => r.expiresAt ≤ now)
  | .deleteSession token, s => .ok (s.dropSessions fun r => r.token = token)
  | .setPassword user hash, s =>
    .ok (s.updateUser user (setHash hash false) (setHash_keeps hash false))
  | .deleteOtherSessions user token _, s =>
    .ok (s.dropSessions fun r => r.userId = user && r.token ≠ token)
  | .recover role user hash recoveryHash now, s =>
    .ok (((s.updateUser user (recoverHash role hash) (recoverHash_keeps role hash)).dropSessions
      fun r => r.userId = user).rotateRecovery role user recoveryHash now)
  | .resetStudent random student teacher, s =>
    (resetStudentTx c random student teacher s).map Prod.snd
  | .bootstrap random req, s => (bootstrapTx c random req s).map Prod.snd
  | .registerTeacher random req, s => (registerTeacherTx c random req s).map Prod.snd

instance (c : Crypto) : Engine AuthState (AccountStatement c) HostError := ⟨AccountStatement.run⟩

abbrev AccountProgram (c : Crypto) := Program AuthState (AccountStatement c) HostError

end Cinder.Accounts
