import Cinder.Host.HostAccess
set_option autoImplicit false

/-!
Accounts, sessions and one-time PINs: the data of the authentication routes, and
the statements they execute. An explicit transaction is one statement.
-/

namespace Cinder.Accounts
open Cinder.Host Cinder.Storage Cinder.Programs Cinder.Programs.Program

/-- The password hash and the token digest, of libraries. A hash accepts the
secret it was made of. -/
structure Crypto where
  hash : (salt secret : String) → String
  verify : (stored secret : String) → Bool
  digest : String → String
  verify_hash : ∀ salt secret, verify (hash salt secret) secret = true

/-- The database and the clock that `Utc::now` reads. -/
structure AuthState where
  db : Database
  clock : Time

structure Random where
  uuid : Uuid
  token : String
  salt : Nat → String
  recoveryCode : String
  pin : String

structure AppLoginRequest where
  username : String
  password : String
  deviceLabel : Option String
  expectedRole : Role
  deriving DecidableEq, Repr

structure BootstrapTeacherRequest where
  username : String
  displayName : String
  password : String
  bootstrapPin : String
  deriving DecidableEq, Repr

structure RegisterTeacherRequest where
  username : String
  displayName : String
  password : String
  invitePin : String
  deriving DecidableEq, Repr

/-- The request of `recover_teacher` and of `recover_student`. -/
structure RecoverTeacherRequest where
  username : String
  recoveryCode : String
  newPassword : String
  deriving DecidableEq, Repr

structure ChangePasswordRequest where
  currentPassword : String
  newPassword : String
  deriving DecidableEq, Repr

structure User where
  id : Uuid
  username : String
  displayName : String
  role : Role
  gradeLevel : Option String
  section_ : Option String
  rollNumber : Option String
  mustChangePassword : Bool
  createdAt : Time
  deriving DecidableEq, Repr

def User.ofRow (u : UserRow) : User :=
  { id := u.id, username := u.username, displayName := u.displayName, role := u.role
    gradeLevel := u.gradeLevel, section_ := u.section_, rollNumber := u.rollNumber
    mustChangePassword := u.mustChangePassword, createdAt := u.createdAt }

structure LoginResponse where
  token : String
  user : User
  expiresAt : Time
  deriving DecidableEq, Repr

structure BootstrapTeacherResponse where
  user : User
  recoveryCode : String
  deriving DecidableEq, Repr

structure CreateStudentResponse where
  user : User
  temporaryPassword : String
  recoveryCode : String
  deriving DecidableEq, Repr

def maxPasswordChars : Nat := 1024
def sessionDays : Int := 30
def pinBlockMinutes : Int := 5
def maxPinAttempts : Int := 5

def asciiDigits (s : String) : Bool := s.toList.all Char.isDigit

section Secrets
variable (c : Crypto)

def hashSecret (salt secret : String) : Except HostError String :=
  if maxPasswordChars < charCount secret then
    .error (.badRequest "Password or recovery value is too long.")
  else .ok (c.hash salt secret)

def hashPassword (salt password : String) : Except HostError String :=
  if charCount password < 8 then
    .error (.badRequest "Password must be at least 8 characters.")
  else hashSecret c salt password

def hashTemporaryPin (salt pin : String) : Except HostError String :=
  if pin.utf8ByteSize ≠ 4 ∨ asciiDigits pin = false then
    .error (.badRequest "A temporary PIN must contain exactly four digits.")
  else hashSecret c salt pin

def verifyPassword (stored password : String) : Bool :=
  if maxPasswordChars < charCount password then false else c.verify stored password

theorem hashSecret_verifies {salt secret stored : String}
    (h : hashSecret c salt secret = .ok stored) : verifyPassword c stored secret = true := by
  unfold hashSecret at h
  split at h
  · cases h
  · next hlen =>
    cases h
    rw [verifyPassword, if_neg hlen, c.verify_hash]

theorem hashSecret_length {salt secret stored : String}
    (h : hashSecret c salt secret = .ok stored) : charCount secret ≤ maxPasswordChars := by
  unfold hashSecret at h
  split at h
  · cases h
  · next hlen => exact Nat.le_of_not_lt hlen

theorem hashPassword_secret {salt password stored : String}
    (h : hashPassword c salt password = .ok stored) :
    8 ≤ charCount password ∧ hashSecret c salt password = .ok stored := by
  unfold hashPassword at h
  split at h
  · cases h
  · next hlen => exact ⟨Nat.le_of_not_lt hlen, h⟩

theorem hashTemporaryPin_secret {salt pin stored : String}
    (h : hashTemporaryPin c salt pin = .ok stored) : hashSecret c salt pin = .ok stored := by
  unfold hashTemporaryPin at h
  split at h
  · cases h
  · exact h

end Secrets

/-- The statements of the routes. `compare` is the verification of a password
against the row that `login` has read: it changes nothing, and is recorded in
the history of a run with its outcome. `insertSession` also carries the hash
that was verified, and `deleteOtherSessions` the one that was replaced. -/
inductive AccountStatement (c : Crypto) where
  | tick (elapsed : Nat)
  | compare (user : Uuid) (attempts : Int) (blockedUntil : Option Time) (correct : Bool)
  | recordFailure (user : Uuid) (attempts : Int)
  | blockLogin (user : Uuid) (blockedUntil : Time)
  | recordSuccess (user : Uuid)
  | insertSession (row : SessionRow) (verified : String)
  | deleteExpired (now : Time)
  | deleteSession (token : String)
  | setPassword (user : Uuid) (hash : String)
  | deleteOtherSessions (user : Uuid) (token replaced : String)
  | recover (role : Role) (user : Uuid) (hash recoveryHash : String) (now : Time)
  | resetStudent (random : Random) (student teacher : Uuid)
  | bootstrap (random : Random) (req : BootstrapTeacherRequest)
  | registerTeacher (random : Random) (req : RegisterTeacherRequest)

/-! The assignments of the `UPDATE` statements. None touches a key. -/

section Assignments

def setAttempts (attempts : Int) (blockedUntil : Option Time) (u : UserRow) : UserRow :=
  { u with failedLoginAttempts := attempts, loginBlockedUntil := blockedUntil }

def countFailure (attempts : Int) (u : UserRow) : UserRow :=
  { u with failedLoginAttempts := attempts }

def setHash (hash : String) (mustChange : Bool) (u : UserRow) : UserRow :=
  { u with pwHash := hash, mustChangePassword := mustChange }

/-- `recover_teacher` leaves `must_change_password` alone. -/
def recoverHash (role : Role) (hash : String) (u : UserRow) : UserRow :=
  match role with
  | .teacher => { u with pwHash := hash }
  | .student => { u with pwHash := hash, mustChangePassword := false }

def rotate (hash : String) (now : Time) (r : RecoveryRow) : RecoveryRow :=
  { r with recoveryHash := hash, rotatedAt := some now }

def adopt (owner : Uuid) (k : ClassroomRow) : ClassroomRow := { k with ownerTeacherId := owner }

theorem setAttempts_keeps (attempts : Int) (blockedUntil : Option Time) :
    Table.KeepsKeys (setAttempts attempts blockedUntil) := fun _ _ => rfl

theorem countFailure_keeps (attempts : Int) : Table.KeepsKeys (countFailure attempts) :=
  fun _ _ => rfl

theorem setHash_keeps (hash : String) (mustChange : Bool) :
    Table.KeepsKeys (setHash hash mustChange) := fun _ _ => rfl

theorem recoverHash_keeps (role : Role) (hash : String) :
    Table.KeepsKeys (recoverHash role hash) := fun _ _ => by cases role <;> rfl

theorem rotate_keeps (hash : String) (now : Time) : Table.KeepsKeys (rotate hash now) :=
  fun _ _ => rfl

theorem adopt_keeps (owner : Uuid) : Table.KeepsKeys (adopt owner) := fun _ _ => rfl

end Assignments

end Cinder.Accounts
