import Cinder.Accounts.AccountEffects
set_option autoImplicit false

/-!
The requests that store usernames: the routes that create and edit accounts, and the Host
console, which edits an account on its own connection.
-/

namespace Cinder.Accounts
open Cinder.Host Cinder.Storage Cinder.Programs Cinder.Programs.Program

structure CreateStudentRequest where
  username : String
  displayName : String
  classroomId : Uuid
  gradeLevel : Option String
  section_ : Option String
  rollNumber : Option String
  deriving DecidableEq, Repr

structure UpdateStudentRequest where
  username : String
  displayName : String
  gradeLevel : Option String
  section_ : Option String
  rollNumber : Option String
  deriving DecidableEq, Repr

section Transactions
variable (c : Crypto)

def createStudentTx (random : Random) (req : CreateStudentRequest) (teacher : Uuid)
    (s : AuthState) : Except HostError (CreateStudentResponse × AuthState) := do
  if teacherCanAccess s.db req.classroomId teacher = false then .error .forbidden
  let (user, users) ← insertUser c s.db.users random s.clock req.username req.displayName
    random.pin .student req.gradeLevel req.section_ req.rollNumber true
  let recoveryHash ← hashPassword c (random.salt 1) random.recoveryCode
  let studentRecovery ← stored (s.db.studentRecovery.insert
    { userId := user.id, recoveryHash, createdAt := s.clock })
  let classroomEnrolments ← stored (s.db.classroomEnrolments.insert ⟨req.classroomId, user.id⟩)
  .ok ({ user, temporaryPassword := random.pin, recoveryCode := random.recoveryCode },
    { s with db := { s.db with users, studentRecovery, classroomEnrolments } })

def usernameTaken (username : String) : HostError :=
  .badRequest s!"The username \"{username}\" is already taken."

/-- `WHERE id = ?1 AND role = 'student' AND disabled_at IS NULL`. -/
def enabledStudent (student : Uuid) (u : UserRow) : Bool :=
  u.id = student && u.role = .student && u.disabledAt.isNone

def updateStudentTx (student teacher : Uuid) (req : UpdateStudentRequest) (s : AuthState) :
    Except HostError (User × AuthState) := do
  if studentManagementAccess s.db student teacher = false then .error .forbidden
  let existing ← userNow? s.db.users student
  if existing.role ≠ .student then
    .error (.badRequest "Only student accounts can be edited here.")
  validateIdentity (trim req.username) (trim req.displayName)
  let gradeLevel ← cleanOptional req.gradeLevel "Grade level"
  let section_ ← cleanOptional req.section_ "Section"
  let rollNumber ← cleanOptional req.rollNumber "Roll number"
  match s.db.users.rekey (enabledStudent student) fun u =>
      { u with username := trim req.username, displayName := trim req.displayName
               gradeLevel, section_, rollNumber } with
  | none => .error (usernameTaken (trim req.username))
  | some users => do
    let user ← userNow? users student
    .ok (user, { s with db := { s.db with users } })

/-- `UPDATE users SET username=?2,display_name=?3 WHERE id=?1`. -/
def renamePerson (id : Uuid) (username displayName : String) (s : AuthState) :
    Except HostError AuthState := do
  let users ← stored (s.db.users.rekey (fun u => u.id = id) fun u =>
    { u with username, displayName })
  .ok { s with db := { s.db with users } }

end Transactions

/-- A transaction is one statement. -/
inductive NameStatement (c : Crypto) where
  | account (l : AccountStatement c)
  | createStudent (random : Random) (req : CreateStudentRequest) (teacher : Uuid)
  | updateStudent (student teacher : Uuid) (req : UpdateStudentRequest)
  | renamePerson (id : Uuid) (username displayName : String)

def NameStatement.run {c : Crypto} : NameStatement c → AuthState → Except HostError AuthState
  | .account l, s => l.run s
  | .createStudent random req teacher, s => (createStudentTx c random req teacher s).map Prod.snd
  | .updateStudent student teacher req, s => (updateStudentTx student teacher req s).map Prod.snd
  | .renamePerson id username displayName, s => Accounts.renamePerson id username displayName s

instance (c : Crypto) : Engine AuthState (NameStatement c) HostError := ⟨NameStatement.run⟩

abbrev NameProgram (c : Crypto) := Program AuthState (NameStatement c) HostError

section Handlers
variable (c : Crypto)

def createStudent (random : Random) (caller : CurrentUser) (req : CreateStudentRequest) :
    NameProgram c CreateStudentResponse := do
  require (caller.role.isTeacher = true) .forbidden
  let outcome ← executeReturning (.createStudent random req caller.id)
    fun s => (createStudentTx c random req caller.id s).map Prod.fst
  ofExcept outcome

def updateStudent (caller : CurrentUser) (student : Uuid) (req : UpdateStudentRequest) :
    NameProgram c User := do
  require (caller.role.isTeacher = true) .forbidden
  let outcome ← executeReturning (.updateStudent student caller.id req)
    fun s => (updateStudentTx student caller.id req s).map Prod.fst
  ofExcept outcome

def updatePerson (id : Uuid) (username displayName : String) : NameProgram c Unit := do
  require (trim username ≠ "" ∧ trim displayName ≠ "") (.other "Name and username are required.")
  execute (.renamePerson id (trim username) (trim displayName))

end Handlers

/-- `tick` stands for the time that passes. -/
inductive NameRequest where
  | tick (elapsed : Nat)
  | bootstrap (req : BootstrapTeacherRequest)
  | registerTeacher (req : RegisterTeacherRequest)
  | createStudent (caller : CurrentUser) (req : CreateStudentRequest)
  | updateStudent (caller : CurrentUser) (student : Uuid) (req : UpdateStudentRequest)
  | updatePerson (id : Uuid) (username displayName : String)

structure NameCall where
  random : Random
  request : NameRequest

def handleName (c : Crypto) (call : NameCall) : NameProgram c AccountReply :=
  match call.request with
  | .tick elapsed => do
    execute (.account (.tick elapsed))
    return .ok
  | .bootstrap req => do
    let response ← (bootstrap c call.random req).relabel .account
    return .recovered response
  | .registerTeacher req => do
    let response ← (registerTeacher c call.random req).relabel .account
    return .recovered response
  | .createStudent caller req => do
    let response ← createStudent c call.random caller req
    return .credentials response
  | .updateStudent caller student req => do
    let user ← updateStudent c caller student req
    return .user user
  | .updatePerson id username displayName => do
    updatePerson c id username displayName
    return .ok

abbrev NamePool (c : Crypto) (ι : Type) :=
  Pool ι NameCall AuthState (NameStatement c) HostError AccountReply

inductive StoresNames {c : Crypto} : NameStatement c → Prop where
  | tick (elapsed : Nat) : StoresNames (.account (.tick elapsed))
  | bootstrap (random : Random) (req : BootstrapTeacherRequest) :
      StoresNames (.account (.bootstrap random req))
  | registerTeacher (random : Random) (req : RegisterTeacherRequest) :
      StoresNames (.account (.registerTeacher random req))
  | createStudent (random : Random) (req : CreateStudentRequest) (teacher : Uuid) :
      StoresNames (.createStudent random req teacher)
  | updateStudent (student teacher : Uuid) (req : UpdateStudentRequest) :
      StoresNames (.updateStudent student teacher req)
  | renamePerson (id : Uuid) (username displayName : String) :
      StoresNames (.renamePerson id username displayName)

theorem handleName_writes (c : Crypto) (call : NameCall) :
    (handleName c call).WritesOnly StoresNames := by
  obtain ⟨random, request⟩ := call
  cases request with
  | tick elapsed => exact (writesOnly_execute (.tick elapsed)).bind fun _ => trivial
  | bootstrap req =>
    refine WritesOnly.bind ?_ fun _ => trivial
    refine WritesOnly.relabel (WritesOnly.bind (writesOnly_executeReturning _ ?_) fun _ =>
      (readOnly_ofExcept _).writesOnly)
    exact .bootstrap random req
  | registerTeacher req =>
    refine WritesOnly.bind ?_ fun _ => trivial
    refine WritesOnly.relabel (WritesOnly.bind (readOnly_require _ _).writesOnly fun _ =>
      WritesOnly.bind (writesOnly_executeReturning _ ?_) fun _ => (readOnly_ofExcept _).writesOnly)
    exact .registerTeacher random req
  | createStudent caller req =>
    refine WritesOnly.bind ?_ fun _ => trivial
    exact WritesOnly.bind (readOnly_require _ _).writesOnly fun _ =>
      WritesOnly.bind (writesOnly_executeReturning _ (.createStudent random req caller.id))
        fun _ => (readOnly_ofExcept _).writesOnly
  | updateStudent caller student req =>
    refine WritesOnly.bind ?_ fun _ => trivial
    exact WritesOnly.bind (readOnly_require _ _).writesOnly fun _ =>
      WritesOnly.bind (writesOnly_executeReturning _ (.updateStudent student caller.id req))
        fun _ => (readOnly_ofExcept _).writesOnly
  | updatePerson id username displayName =>
    refine WritesOnly.bind ?_ fun _ => trivial
    exact WritesOnly.bind (readOnly_require _ _).writesOnly fun _ =>
      writesOnly_execute (.renamePerson id _ _)

def invitedNow (s : AuthState) (pin : Option PinRow) : Bool :=
  s.db.users.rows.any fun u => activeTeacher u && pin.any fun row => row.createdBy = some u.id

/-- The account whose username a statement writes if it takes effect, and the username. -/
def NameStatement.stores {c : Crypto} (s : AuthState) : NameStatement c → Option (Uuid × String)
  | .account (.bootstrap random req) =>
    match verifyLimitedPin c s.db.schoolBootstrapPin req.bootstrapPin s.clock with
    | (.error _, _) => none
    | (.ok _, _) => some (random.uuid, trim req.username)
  | .account (.registerTeacher random req) =>
    match verifyLimitedPin c s.db.teacherInvitePin req.invitePin s.clock with
    | (.error _, _) => none
    | (.ok _, pin) =>
      if invitedNow s pin = true then some (random.uuid, trim req.username) else none
  | .account _ => none
  | .createStudent random req _ => some (random.uuid, trim req.username)
  | .updateStudent student _ req => some (student, trim req.username)
  | .renamePerson id username _ =>
    if s.db.users.rows.any (fun u => u.id = id) = true then some (id, username) else none

def OpenAccount (u : UserRow) : Prop := u.disabledAt = none ∧ u.loginBlockedUntil = none

instance (u : UserRow) : Decidable (OpenAccount u) := inferInstanceAs (Decidable (_ ∧ _))

/-- The accounts after `name` has been stored for the account `id`. -/
structure Named (t t' : Table UserRow) (id : Uuid) (name : String) : Prop where
  others : ∀ u : UserRow, u.id ≠ id → (u ∈ t'.rows ↔ u ∈ t.rows)
  named : ∀ u ∈ t'.rows, u.id = id → u.username = name
  found : ∃ u ∈ t'.rows, u.id = id
  opens : (∀ u ∈ t.rows, OpenAccount u) → ∀ u ∈ t'.rows, OpenAccount u

section Effects
variable {c : Crypto} {s s' : AuthState} {t t' : Table UserRow}

theorem named_insert {row : UserRow} (h : t.insert row = some t') (hrow : OpenAccount row) :
    Named t t' row.id row.username := by
  refine ⟨fun u hu => ?_, fun u hu hid => ?_, ⟨row, (Table.mem_insert h).mpr (.inr rfl), rfl⟩,
    fun hopen u hu => ?_⟩
  · rw [Table.mem_insert h]
    constructor
    · rintro (hold | rfl)
      · exact hold
      · exact absurd rfl hu
    · exact .inl
  · rcases (Table.mem_insert h).mp hu with hold | rfl
    · have hclash := Table.clash_insert h hold
      simp [Keyed.clash, hid] at hclash
    · rfl
  · rcases (Table.mem_insert h).mp hu with hold | rfl
    · exact hopen u hold
    · exact hrow

theorem named_rekey {p : UserRow → Bool} {f : UserRow → UserRow} {id : Uuid} {name : String}
    (h : t.rekey p f = some t') (hp : ∀ u ∈ t.rows, p u = true ↔ u.id = id)
    (hid : ∀ u, (f u).id = u.id) (hname : ∀ u, (f u).username = name)
    (hopen : ∀ u, OpenAccount u → OpenAccount (f u)) (hfound : ∃ u ∈ t.rows, u.id = id) :
    Named t t' id name := by
  have hmem : ∀ u, u ∈ t'.rows ↔ ∃ v ∈ t.rows, (if p v = true then f v else v) = u := by
    intro u
    rw [Table.rows_rekey h, List.mem_map]
  refine ⟨fun u hu => ?_, fun u hu huid => ?_, ?_, fun hall u hu => ?_⟩
  · rw [hmem]
    constructor
    · rintro ⟨v, hv, rfl⟩
      by_cases hpv : p v = true
      · rw [if_pos hpv] at hu
        exact absurd ((hid v).trans ((hp v hv).mp hpv)) hu
      · rwa [if_neg hpv]
    · exact fun hold => ⟨u, hold, if_neg fun hpu => hu ((hp u hold).mp hpu)⟩
  · obtain ⟨v, hv, rfl⟩ := (hmem u).mp hu
    by_cases hpv : p v = true
    · rw [if_pos hpv]
      exact hname v
    · rw [if_neg hpv] at huid
      exact absurd ((hp v hv).mpr huid) hpv
  · obtain ⟨v, hv, hvid⟩ := hfound
    exact ⟨f v, (hmem _).mpr ⟨v, hv, if_pos ((hp v hv).mpr hvid)⟩, (hid v).trans hvid⟩
  · obtain ⟨v, hv, rfl⟩ := (hmem u).mp hu
    by_cases hpv : p v = true
    · rw [if_pos hpv]
      exact hopen v (hall v hv)
    · rw [if_neg hpv]
      exact hall v hv

theorem insertUser_named {random : Random} {time : Time} {username displayName password : String}
    {role : Role} {gradeLevel section_ rollNumber : Option String} {mustChange : Bool} {user : User}
    (h : insertUser c t random time username displayName password role gradeLevel section_
      rollNumber mustChange = .ok (user, t')) : Named t t' random.uuid (trim username) := by
  unfold insertUser at h
  obtain ⟨-, -, h⟩ := bind_eq_ok.mp h
  obtain ⟨pwHash, -, h⟩ := bind_eq_ok.mp h
  obtain ⟨gradeLevel, -, h⟩ := bind_eq_ok.mp h
  obtain ⟨section_, -, h⟩ := bind_eq_ok.mp h
  obtain ⟨rollNumber, -, h⟩ := bind_eq_ok.mp h
  dsimp only at h
  split at h
  · next hins =>
    cases h
    exact named_insert hins ⟨rfl, rfl⟩
  · cases h

def Stored (l : NameStatement c) (s s' : AuthState) : Prop :=
  (l.stores s).elim (s'.db.users.rows = s.db.users.rows) fun x =>
    Named s.db.users s'.db.users x.1 x.2

theorem stored_bootstrap {random : Random} {req : BootstrapTeacherRequest}
    {r : Except HostError BootstrapTeacherResponse}
    (h : bootstrapTx c random req s = .ok (r, s')) :
    Stored (c := c) (.account (.bootstrap random req)) s s' := by
  unfold bootstrapTx at h
  split at h
  · cases h
  · cases hpin : verifyLimitedPin c s.db.schoolBootstrapPin req.bootstrapPin s.clock with
    | mk verdict pin =>
      rw [hpin] at h
      cases verdict with
      | error e =>
        cases h
        simp [Stored, NameStatement.stores, hpin]
      | ok _ =>
        obtain ⟨⟨user, users⟩, hins, h⟩ := bind_eq_ok.mp h
        obtain ⟨hash, -, h⟩ := bind_eq_ok.mp h
        obtain ⟨recovery, -, h⟩ := bind_eq_ok.mp h
        cases h
        simpa [Stored, NameStatement.stores, hpin] using insertUser_named hins

theorem stored_registerTeacher {random : Random} {req : RegisterTeacherRequest}
    {r : Except HostError BootstrapTeacherResponse}
    (h : registerTeacherTx c random req s = .ok (r, s')) :
    Stored (c := c) (.account (.registerTeacher random req)) s s' := by
  unfold registerTeacherTx at h
  cases hpin : verifyLimitedPin c s.db.teacherInvitePin req.invitePin s.clock with
  | mk verdict pin =>
    rw [hpin] at h
    cases verdict with
    | error e =>
      cases h
      simp [Stored, NameStatement.stores, hpin]
    | ok _ =>
      dsimp only at h
      split at h
      · next hinvited =>
        cases h
        simp [Stored, NameStatement.stores, hpin, invitedNow, hinvited]
      · next hinvited =>
        obtain ⟨⟨user, users⟩, hins, h⟩ := bind_eq_ok.mp h
        obtain ⟨hash, -, h⟩ := bind_eq_ok.mp h
        obtain ⟨recovery, -, h⟩ := bind_eq_ok.mp h
        cases h
        have hnow : invitedNow s pin = true := eq_true_of_ne_false hinvited
        simpa [Stored, NameStatement.stores, hpin, hnow] using insertUser_named hins

theorem stored_createStudent {random : Random} {req : CreateStudentRequest} {teacher : Uuid}
    {r : CreateStudentResponse} (h : createStudentTx c random req teacher s = .ok (r, s')) :
    Stored (c := c) (.createStudent random req teacher) s s' := by
  unfold createStudentTx at h
  split at h
  · cases h
  · obtain ⟨⟨user, users⟩, hins, h⟩ := bind_eq_ok.mp h
    obtain ⟨hash, -, h⟩ := bind_eq_ok.mp h
    obtain ⟨recovery, -, h⟩ := bind_eq_ok.mp h
    obtain ⟨enrolments, -, h⟩ := bind_eq_ok.mp h
    cases h
    exact insertUser_named hins

theorem student_found {users : Table UserRow} {id : Uuid} {user : User}
    (h : userNow? users id = .ok user) (hrole : user.role = .student) :
    ∃ u ∈ users.rows, u.id = id ∧ u.role = .student := by
  unfold userNow? at h
  split at h
  · next u hfind =>
    cases h
    obtain ⟨hu, hid⟩ := Table.mem_of_find? hfind
    exact ⟨u, hu, of_decide_eq_true hid, hrole⟩
  · cases h

theorem stored_updateStudent {student teacher : Uuid} {req : UpdateStudentRequest} {user : User}
    (hopen : ∀ u ∈ s.db.users.rows, OpenAccount u)
    (h : updateStudentTx student teacher req s = .ok (user, s')) :
    Stored (c := c) (.updateStudent student teacher req) s s' := by
  unfold updateStudentTx at h
  split at h
  · cases h
  · obtain ⟨existing, hexisting, h⟩ := bind_eq_ok.mp h
    dsimp only at h
    split at h
    · cases h
    · next hrole =>
      obtain ⟨-, -, h⟩ := bind_eq_ok.mp h
      obtain ⟨gradeLevel, -, h⟩ := bind_eq_ok.mp h
      obtain ⟨section_, -, h⟩ := bind_eq_ok.mp h
      obtain ⟨rollNumber, -, h⟩ := bind_eq_ok.mp h
      split at h
      · cases h
      · next users hrekey =>
        obtain ⟨user', -, h⟩ := bind_eq_ok.mp h
        cases h
        obtain ⟨u, hu, hid, hstudent⟩ := student_found hexisting (by simpa using hrole)
        refine named_rekey hrekey (fun v hv => ?_) (fun _ => rfl) (fun _ => rfl) (fun _ h => h)
          ⟨u, hu, hid⟩
        constructor
        · intro hv
          simp only [enabledStudent, Bool.and_eq_true, decide_eq_true_eq] at hv
          exact hv.1.1
        · intro hvid
          have hsame : v = u := Table.eq_of_clash hv hu (by simp [Keyed.clash, hvid, hid])
          simp [enabledStudent, hvid, hsame ▸ hstudent, (hopen v hv).1]

theorem stored_renamePerson {id : Uuid} {username displayName : String}
    (h : renamePerson id username displayName s = .ok s') :
    Stored (c := c) (.renamePerson id username displayName) s s' := by
  obtain ⟨users, hrekey, h⟩ := bind_eq_ok.mp h
  cases h
  have hrekey := stored_eq_ok.mp hrekey
  by_cases hfound : ∃ u ∈ s.db.users.rows, u.id = id
  · have hany : s.db.users.rows.any (fun u => u.id = id) = true := by simpa using hfound
    simp only [Stored, NameStatement.stores, hany, if_true, Option.elim_some]
    exact named_rekey hrekey (by simp) (fun _ => rfl) (fun _ => rfl) (fun _ h => h) hfound
  · have hany : s.db.users.rows.any (fun u => u.id = id) = false := by simpa using hfound
    simp only [Stored, NameStatement.stores, hany, Bool.false_eq_true, if_false, Option.elim_none]
    rw [Table.rows_rekey hrekey]
    refine (List.map_congr_left fun u hu => ?_).trans (List.map_id _)
    exact if_neg fun hid => hfound ⟨u, hu, of_decide_eq_true hid⟩

theorem run_stored {l : NameStatement c} (hl : StoresNames l)
    (hopen : ∀ u ∈ s.db.users.rows, OpenAccount u) (h : l.run s = .ok s') : Stored l s s' := by
  cases hl with
  | tick elapsed =>
    cases h
    exact rfl
  | bootstrap random req =>
    obtain ⟨r, htx⟩ := map_snd_eq_ok h
    exact stored_bootstrap htx
  | registerTeacher random req =>
    obtain ⟨r, htx⟩ := map_snd_eq_ok h
    exact stored_registerTeacher htx
  | createStudent random req teacher =>
    obtain ⟨r, htx⟩ := map_snd_eq_ok h
    exact stored_createStudent htx
  | updateStudent student teacher req =>
    obtain ⟨r, htx⟩ := map_snd_eq_ok h
    exact stored_updateStudent hopen htx
  | renamePerson id username displayName => exact stored_renamePerson h

end Effects

end Cinder.Accounts
