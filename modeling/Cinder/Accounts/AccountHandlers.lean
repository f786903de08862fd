import Cinder.Accounts.AccountTransactions
import Cinder.Programs.RequestPool
set_option autoImplicit false

/-!
The handlers of the authentication routes. The clock is read where the source
calls `Utc::now`, which is a step of its own.
-/

namespace Cinder.Accounts
open Cinder.Host Cinder.Storage Cinder.Programs Cinder.Programs.Program

section Handlers
variable (c : Crypto)

/-- `lower(username) = lower(?1)`. -/
def userNamed? (db : Database) (username : String) : Option UserRow :=
  db.users.find? fun u => lower u.username = lower username

def now : AccountProgram c Time := query fun s => s.clock

def loadUser (id : Uuid) : AccountProgram c User :=
  queryRow (fun s => (user? s.db id).map User.ofRow) (.notFound "user")

def loginAccepts (req : AppLoginRequest) : Prop :=
  charCount req.username ≤ 64 ∧ charCount req.password ≤ maxPasswordChars ∧
    ∀ label ∈ req.deviceLabel, charCount label ≤ 120

instance (req : AppLoginRequest) : Decidable (loginAccepts req) := by
  unfold loginAccepts
  infer_instance

/-- A wrong password is counted; the fifth blocks the account. -/
def refuseLogin {α : Type} (u : UserRow) (time : Time) : AccountProgram c α :=
  if 5 ≤ u.failedLoginAttempts+1 then do
    execute (.blockLogin u.id (time+minutes 5))
    .fail .rateLimited
  else do
    execute (.recordFailure u.id (u.failedLoginAttempts+1))
    .fail .badCredentials

/-- After the right password: the count is reset and a session stored. -/
def openSession (random : Random) (req : AppLoginRequest) (u : UserRow) (time : Time) :
    AccountProgram c LoginResponse := do
  execute (.recordSuccess u.id)
  execute (.insertSession
    { token := c.digest random.token, userId := u.id, deviceLabel := req.deviceLabel
      createdAt := time, expiresAt := time+days sessionDays } u.pwHash)
  execute (.deleteExpired time)
  pure { token := random.token, user := User.ofRow u, expiresAt := time+days sessionDays }

def login (random : Random) (req : AppLoginRequest) : AccountProgram c LoginResponse := do
  require (loginAccepts req) .badCredentials
  let u ← queryRow (fun s => userNamed? s.db req.username) .badCredentials
  let time ← now c
  require (∀ t ∈ u.loginBlockedUntil, t ≤ time) .rateLimited
  require (u.disabledAt = none ∧ u.role = req.expectedRole) .badCredentials
  let correct := verifyPassword c u.pwHash req.password
  execute (.compare u.id u.failedLoginAttempts u.loginBlockedUntil correct)
  if correct then openSession c random req u time else refuseLogin c u time

/-- The caller of a request with a session token, and the token's digest. -/
structure SessionCaller where
  user : User
  digest : String
  deriving DecidableEq, Repr

/-- `sessions JOIN users`. -/
def sessionUser? (db : Database) (digest : String) : Option (SessionRow × UserRow) := do
  let r ← db.sessions.find? fun r => r.token = digest
  let u ← user? db r.userId
  some (r, u)

def lookupSession (token : String) : AccountProgram c SessionCaller := do
  let (r, u) ← queryRow (fun s => sessionUser? s.db (c.digest token)) .unauthenticated
  require (u.disabledAt = none) .forbidden
  let time ← now c
  if r.expiresAt ≤ time then do
    execute (.deleteSession (c.digest token))
    .fail .unauthenticated
  else pure { user := User.ofRow u, digest := c.digest token }

/-- A temporary password opens only the routes `exempt` names: changing it,
signing out, and `me`. -/
def currentUser (token : String) (exempt : Bool) : AccountProgram c SessionCaller := do
  let caller ← lookupSession c token
  require (caller.user.mustChangePassword = true → exempt = true) .forbidden
  pure caller

/-- The account that a recovery request names, with its recovery hash. -/
def recoverableTeacher? (db : Database) (username : String) : Option (Uuid × String) := do
  let u ← db.users.find? fun u => lower u.username = lower username && u.role = .teacher &&
    u.disabledAt.isNone
  let r ← db.teacherRecovery.find? fun r => r.userId = u.id
  some (u.id, r.recoveryHash)

/-- Unlike a teacher's, a student's account may be disabled. -/
def recoverableStudent? (db : Database) (username : String) : Option (Uuid × String) := do
  let u ← db.users.find? fun u => lower u.username = lower username && u.role = .student
  let r ← db.studentRecovery.find? fun r => r.userId = u.id
  some (u.id, r.recoveryHash)

/-- What `recover_teacher` and `recover_student` do with the account they find. -/
def recoverAccount (role : Role) (found : Database → Option (Uuid × String)) (random : Random)
    (req : RecoverTeacherRequest) : AccountProgram c BootstrapTeacherResponse := do
  let (id, recoveryHash) ← queryRow (fun s => found s.db) .badCredentials
  require (verifyPassword c recoveryHash req.recoveryCode = true) .badCredentials
  let pwHash ← ofExcept (hashPassword c (random.salt 0) req.newPassword)
  let nextRecoveryHash ← ofExcept (hashPassword c (random.salt 1) random.recoveryCode)
  let time ← now c
  execute (.recover role id pwHash nextRecoveryHash time)
  let user ← loadUser c id
  pure { user, recoveryCode := random.recoveryCode }

def recoverTeacher (random : Random) (req : RecoverTeacherRequest) :=
  recoverAccount c .teacher (fun db => recoverableTeacher? db req.username) random req

def recoverStudent (random : Random) (req : RecoverTeacherRequest) :=
  recoverAccount c .student (fun db => recoverableStudent? db req.username) random req

/-- `UPDATE users` and `DELETE FROM sessions` are two statements. -/
def changePassword (random : Random) (caller : SessionCaller) (req : ChangePasswordRequest) :
    AccountProgram c User := do
  let currentHash ← queryRow (fun s => (user? s.db caller.user.id).map fun u => u.pwHash)
    (.database .queryReturnedNoRows)
  require (verifyPassword c currentHash req.currentPassword = true) .badCredentials
  let newHash ← ofExcept (hashPassword c (random.salt 0) req.newPassword)
  let replaced ← executeReturning (.setPassword caller.user.id newHash)
    fun s => ((user? s.db caller.user.id).map fun u => u.pwHash).getD ""
  execute (.deleteOtherSessions caller.user.id caller.digest replaced)
  loadUser c caller.user.id

def resetStudentCredentials (random : Random) (caller : SessionCaller) (student : Uuid) :
    AccountProgram c CreateStudentResponse := do
  require (caller.user.role.isTeacher = true) .forbidden
  let outcome ← executeReturning (.resetStudent random student caller.user.id)
    fun s => (resetStudentTx c random student caller.user.id s).map Prod.fst
  ofExcept outcome

def bootstrap (random : Random) (req : BootstrapTeacherRequest) :
    AccountProgram c BootstrapTeacherResponse := do
  let outcome ← executeReturning (.bootstrap random req)
    fun s => (bootstrapTx c random req s).bind Prod.fst
  ofExcept outcome

def registerTeacher (random : Random) (req : RegisterTeacherRequest) :
    AccountProgram c BootstrapTeacherResponse := do
  require (8 ≤ req.password.utf8ByteSize)
    (.badRequest "Use at least 8 characters for the password.")
  let outcome ← executeReturning (.registerTeacher random req)
    fun s => (registerTeacherTx c random req s).bind Prod.fst
  ofExcept outcome

end Handlers

inductive AccountReply where
  | session (r : LoginResponse)
  | recovered (r : BootstrapTeacherResponse)
  | credentials (r : CreateStudentResponse)
  | user (u : User)
  | ok
  deriving DecidableEq, Repr

/-- `tick` stands for the time that passes. `authenticated` is any route behind
a session token; the two that change credentials are also listed by name. -/
inductive AccountRequest (c : Crypto) where
  | tick (elapsed : Nat)
  | login (req : AppLoginRequest)
  | recoverTeacher (req : RecoverTeacherRequest)
  | recoverStudent (req : RecoverTeacherRequest)
  | bootstrap (req : BootstrapTeacherRequest)
  | registerTeacher (req : RegisterTeacherRequest)
  | changePassword (token : String) (req : ChangePasswordRequest)
  | resetStudent (token : String) (student : Uuid)
  | authenticated (token : String) (exempt : Bool)
      (route : Random → SessionCaller → AccountProgram c AccountReply)

structure AccountCall (c : Crypto) where
  random : Random
  request : AccountRequest c

def replying {c : Crypto} {α : Type} (reply : α → AccountReply) (p : AccountProgram c α) :
    AccountProgram c AccountReply := do
  let a ← p
  pure (reply a)

def handle (c : Crypto) (call : AccountCall c) : AccountProgram c AccountReply :=
  match call.request with
  | .tick elapsed => replying (fun _ => .ok) (execute (.tick elapsed))
  | .login req => replying .session (login c call.random req)
  | .recoverTeacher req => replying .recovered (recoverTeacher c call.random req)
  | .recoverStudent req => replying .recovered (recoverStudent c call.random req)
  | .bootstrap req => replying .recovered (bootstrap c call.random req)
  | .registerTeacher req => replying .recovered (registerTeacher c call.random req)
  | .changePassword token req => do
    let caller ← currentUser c token true
    replying .user (changePassword c call.random caller req)
  | .resetStudent token student => do
    let caller ← currentUser c token false
    replying .credentials (resetStudentCredentials c call.random caller student)
  | .authenticated token exempt route => do
    let caller ← currentUser c token exempt
    route call.random caller

abbrev AccountHistory (c : Crypto) (ι : Type) := List (Event ι AuthState (AccountStatement c))

abbrev AccountWorld (c : Crypto) (ι : Type) := World ι AuthState (AccountStatement c)

abbrev AccountPool (c : Crypto) (ι : Type) :=
  Pool ι (AccountCall c) AuthState (AccountStatement c) HostError AccountReply

section Writes
variable (c : Crypto)

theorem now_readOnly : (now c).ReadOnly := readOnly_query _

theorem loadUser_readOnly (id : Uuid) : (loadUser c id).ReadOnly := readOnly_queryRow _ _

variable {c}

theorem openSession_writes (random : Random) (req : AppLoginRequest) (u : UserRow) (time : Time)
    {p : AccountStatement c → Prop} (hsuccess : p (.recordSuccess u.id))
    (hinsert : ∀ row, row.userId = u.id → p (.insertSession row u.pwHash))
    (hexpired : p (.deleteExpired time)) : (openSession c random req u time).WritesOnly p := by
  refine WritesOnly.bind (writesOnly_execute hsuccess) fun _ => ?_
  refine WritesOnly.bind (writesOnly_execute (hinsert _ rfl)) fun _ => ?_
  exact WritesOnly.bind (writesOnly_execute hexpired) fun _ => trivial

theorem refuseLogin_writes {α : Type} (u : UserRow) (time : Time)
    {p : AccountStatement c → Prop} (hblock : ∀ t, p (.blockLogin u.id t))
    (hcount : ∀ n, p (.recordFailure u.id n)) :
    (refuseLogin c u time : AccountProgram c α).WritesOnly p := by
  unfold refuseLogin
  split
  · exact WritesOnly.bind (writesOnly_execute (hblock _)) fun _ => trivial
  · exact WritesOnly.bind (writesOnly_execute (hcount _)) fun _ => trivial

theorem lookupSession_writes (token : String) {p : AccountStatement c → Prop}
    (hdelete : p (.deleteSession (c.digest token))) : (lookupSession c token).WritesOnly p := by
  refine (readOnly_queryRow _ _).writesOnly.bind fun found => ?_
  refine (readOnly_require _ _).writesOnly.bind fun _ => ?_
  refine (now_readOnly c).writesOnly.bind fun time => ?_
  split
  · exact WritesOnly.bind (writesOnly_execute hdelete) fun _ => trivial
  · trivial

end Writes

def sampleCrypto : Crypto where
  hash _ secret := "h:" ++ secret
  verify stored secret := stored = "h:" ++ secret
  digest token := "d:" ++ token
  verify_hash _ _ := decide_eq_true rfl

def sampleAccounts : AuthState where
  db := { sampleClassroom with
    users := ⟨[{ id := 1, username := "ada", displayName := "Ada", pwHash := "h:old apple"
                 role := .student, createdAt := 0 },
               { id := 2, username := "tim", displayName := "Tim", pwHash := "h:white chalk"
                 role := .teacher, createdAt := 0 }], by decide +kernel⟩
    sessions := .single ⟨"d:tim", 2, none, 0, days 30⟩
    studentRecovery := .single ⟨1, "h:ada code", 0, none⟩
    teacherRecovery := .single ⟨2, "h:tim code", 0, none⟩ }
  clock := 0

def sampleRandom (n : Nat) (token : String) : Random where
  uuid := n
  token := token
  salt _ := "salt"
  recoveryCode := "next code"
  pin := "4711"

def sampleLogin (password : String) : AppLoginRequest := ⟨"Ada", password, none, .student⟩

end Cinder.Accounts
