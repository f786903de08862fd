import Cinder.Accounts.AccountHandlers
set_option autoImplicit false

namespace Cinder.Accounts
open Cinder.Host Cinder.Storage Cinder.Programs Cinder.Programs.Program

variable {c : Crypto} {s s' : AuthState}

theorem map_snd_eq_ok {α β ε : Type} {x : Except ε (α × β)} {b : β}
    (h : x.map Prod.snd = .ok b) : ∃ a, x = .ok (a, b) := by
  cases x with
  | error e => cases h
  | ok p =>
    cases h
    exact ⟨p.1, rfl⟩

theorem insertUser_ok {users users' : Table UserRow} {random : Random} {time : Time}
    {username displayName password : String} {role : Role}
    {gradeLevel section_ rollNumber : Option String} {mustChange : Bool} {user : User}
    (h : insertUser c users random time username displayName password role gradeLevel section_
      rollNumber mustChange = .ok (user, users')) :
    ∃ row, users.insert row = some users' ∧ user = User.ofRow row ∧ row.role = role ∧
      row.disabledAt = none := by
  unfold insertUser at h
  obtain ⟨-, -, h⟩ := bind_eq_ok.mp h
  obtain ⟨pwHash, -, h⟩ := bind_eq_ok.mp h
  obtain ⟨gradeLevel, -, h⟩ := bind_eq_ok.mp h
  obtain ⟨section_, -, h⟩ := bind_eq_ok.mp h
  obtain ⟨rollNumber, -, h⟩ := bind_eq_ok.mp h
  dsimp only at h
  split at h
  · next hins =>
    cases h
    exact ⟨_, hins, rfl, rfl, rfl⟩
  · cases h

/-- A registration adds one account with its recovery code, or only counts an
attempt at the PIN. -/
structure Registers (s s' : AuthState) : Prop where
  sessions : s'.db.sessions = s.db.sessions
  studentRecovery : s'.db.studentRecovery = s.db.studentRecovery
  account : (s'.db.users = s.db.users ∧ s'.db.teacherRecovery = s.db.teacherRecovery) ∨
    ∃ row recovery, s.db.users.insert row = some s'.db.users ∧ recovery.userId = row.id ∧
      s.db.teacherRecovery.insert recovery = some s'.db.teacherRecovery

theorem bootstrapTx_registers {random : Random} {req : BootstrapTeacherRequest}
    {r : Except HostError BootstrapTeacherResponse}
    (h : bootstrapTx c random req s = .ok (r, s')) : Registers s s' := by
  unfold bootstrapTx at h
  split at h
  · cases h
  · split at h
    · cases h
      exact ⟨rfl, rfl, .inl ⟨rfl, rfl⟩⟩
    · obtain ⟨⟨user, users⟩, hins, h⟩ := bind_eq_ok.mp h
      obtain ⟨hash, -, h⟩ := bind_eq_ok.mp h
      obtain ⟨recovery, hrecovery, h⟩ := bind_eq_ok.mp h
      obtain ⟨row, hrow, rfl, -⟩ := insertUser_ok hins
      cases h
      exact ⟨rfl, rfl, .inr ⟨row, _, hrow, rfl, stored_eq_ok.mp hrecovery⟩⟩

theorem registerTeacherTx_registers {random : Random} {req : RegisterTeacherRequest}
    {r : Except HostError BootstrapTeacherResponse}
    (h : registerTeacherTx c random req s = .ok (r, s')) : Registers s s' := by
  unfold registerTeacherTx at h
  split at h
  · cases h
    exact ⟨rfl, rfl, .inl ⟨rfl, rfl⟩⟩
  · split at h
    · cases h
      exact ⟨rfl, rfl, .inl ⟨rfl, rfl⟩⟩
    · obtain ⟨⟨user, users⟩, hins, h⟩ := bind_eq_ok.mp h
      obtain ⟨hash, -, h⟩ := bind_eq_ok.mp h
      obtain ⟨recovery, hrecovery, h⟩ := bind_eq_ok.mp h
      obtain ⟨row, hrow, rfl, -⟩ := insertUser_ok hins
      cases h
      exact ⟨rfl, rfl, .inr ⟨row, _, hrow, rfl, stored_eq_ok.mp hrecovery⟩⟩

/-- What the transaction of `recover_teacher` and `recover_student` does. -/
structure Recovers (role : Role) (id : Uuid) (hash recoveryHash : String) (time : Time)
    (s s' : AuthState) : Prop where
  users : s'.db.users = s.db.users.update (fun u => u.id = id) (recoverHash role hash)
    (recoverHash_keeps role hash)
  sessions : s'.db.sessions = s.db.sessions.delete fun r => r.userId = id
  teacherRecovery : s'.db.teacherRecovery = if role = .teacher then
    s.db.teacherRecovery.update (fun r => r.userId = id) (rotate recoveryHash time)
      (rotate_keeps recoveryHash time) else s.db.teacherRecovery
  studentRecovery : s'.db.studentRecovery = if role = .student then
    s.db.studentRecovery.update (fun r => r.userId = id) (rotate recoveryHash time)
      (rotate_keeps recoveryHash time) else s.db.studentRecovery
  clock : s'.clock = s.clock

theorem run_recover {role : Role} {id : Uuid} {hash recoveryHash : String} {time : Time}
    (h : (AccountStatement.recover role id hash recoveryHash time : AccountStatement c).run s =
      .ok s') : Recovers role id hash recoveryHash time s s' := by
  cases h
  cases role <;> exact ⟨rfl, rfl, rfl, rfl, rfl⟩

structure ResetsStudent (c : Crypto) (random : Random) (student : Uuid) (s : AuthState)
    (reply : CreateStudentResponse) (s' : AuthState) : Prop where
  users : ∃ pwHash, hashTemporaryPin c (random.salt 0) random.pin = .ok pwHash ∧
    s'.db.users = s.db.users.update (fun u => u.id = student) (setHash pwHash true)
      (setHash_keeps pwHash true)
  sessions : s'.db.sessions = s.db.sessions.delete fun r => r.userId = student
  teacherRecovery : s'.db.teacherRecovery = s.db.teacherRecovery
  studentRecovery : ∃ hash, s.db.studentRecovery.upsert (fun r => r.userId = student)
    (rotate hash s.clock) (rotate_keeps hash s.clock)
    { userId := student, recoveryHash := hash, createdAt := s.clock, rotatedAt := some s.clock } =
      some s'.db.studentRecovery
  clock : s'.clock = s.clock
  pin : reply.temporaryPassword = random.pin

theorem resetStudentTx_ok {random : Random} {student teacher : Uuid}
    {reply : CreateStudentResponse}
    (h : resetStudentTx c random student teacher s = .ok (reply, s')) :
    ResetsStudent c random student s reply s' := by
  unfold resetStudentTx at h
  split at h
  · cases h
  · obtain ⟨user, -, h⟩ := bind_eq_ok.mp h
    dsimp only at h
    split at h
    · cases h
    · obtain ⟨pwHash, hhash, h⟩ := bind_eq_ok.mp h
      obtain ⟨recoveryHash, -, h⟩ := bind_eq_ok.mp h
      obtain ⟨studentRecovery, hrecovery, h⟩ := bind_eq_ok.mp h
      obtain ⟨user', -, h⟩ := bind_eq_ok.mp h
      cases h
      exact ⟨⟨pwHash, hhash, rfl⟩, rfl, rfl, ⟨recoveryHash, stored_eq_ok.mp hrecovery⟩, rfl, rfl⟩

/-- A completed change of an account's credentials: the hash it replaced, and
the digest of the session it spared. -/
structure CredentialChange where
  user : Uuid
  replaced : String
  spared : Option String
  deriving DecidableEq, Repr

def AccountStatement.changed? (l : AccountStatement c) (s : AuthState) :
    Option CredentialChange :=
  match l with
  | .recover _ user _ _ _ => (user? s.db user).map fun u => ⟨user, u.pwHash, none⟩
  | .resetStudent _ user _ => (user? s.db user).map fun u => ⟨user, u.pwHash, none⟩
  | .deleteOtherSessions user token replaced => some ⟨user, replaced, some token⟩
  | _ => none

/-- Where the sessions after a statement come from. A completed change of an
account's credentials leaves it the one session the change names. -/
theorem sessions_step {l : AccountStatement c} (h : l.run s = .ok s') {r : SessionRow}
    (hr : r ∈ s'.db.sessions.rows) :
    (∃ verified, l = .insertSession r verified) ∨
      (r ∈ s.db.sessions.rows ∧ (∀ row verified, l = .insertSession row verified →
          r.token ≠ row.token) ∧
        ∀ change ∈ l.changed? s, change.user = r.userId → change.spared = some r.token) := by
  cases l with
  | insertSession row verified =>
    obtain ⟨sessions, hins, h⟩ := bind_eq_ok.mp h
    cases h
    rcases (Table.mem_insert (stored_eq_ok.mp hins)).mp hr with hold | rfl
    · refine .inr ⟨hold, fun row' verified' hl => ?_, fun _ hch => by cases hch⟩
      cases hl
      simpa [Keyed.clash] using Table.clash_insert (stored_eq_ok.mp hins) hold
    · exact .inl ⟨verified, rfl⟩
  | deleteOtherSessions user token replaced =>
    cases h
    obtain ⟨hold, hkept⟩ := Table.mem_delete.mp hr
    refine .inr ⟨hold, fun _ _ hl => (by cases hl), fun change hch huser => ?_⟩
    cases hch
    have htoken : r.token = token := by
      by_contra hne
      simp [← huser, hne] at hkept
    exact congrArg some htoken.symm
  | recover role user hash recoveryHash time =>
    rw [(run_recover h).sessions] at hr
    obtain ⟨hold, hother⟩ := Table.mem_delete.mp hr
    refine .inr ⟨hold, fun _ _ hl => (by cases hl), fun change hch huser => ?_⟩
    obtain ⟨u, -, rfl⟩ := Option.map_eq_some_iff.mp hch
    simp [← huser] at hother
  | resetStudent random student teacher =>
    obtain ⟨reply, h⟩ := map_snd_eq_ok h
    rw [(resetStudentTx_ok h).sessions] at hr
    obtain ⟨hold, hother⟩ := Table.mem_delete.mp hr
    refine .inr ⟨hold, fun _ _ hl => (by cases hl), fun change hch huser => ?_⟩
    obtain ⟨u, -, rfl⟩ := Option.map_eq_some_iff.mp hch
    simp [← huser] at hother
  | bootstrap random req =>
    obtain ⟨reply, h⟩ := map_snd_eq_ok h
    rw [(bootstrapTx_registers h).sessions] at hr
    exact .inr ⟨hr, fun _ _ hl => (by cases hl), fun _ hch => by cases hch⟩
  | registerTeacher random req =>
    obtain ⟨reply, h⟩ := map_snd_eq_ok h
    rw [(registerTeacherTx_registers h).sessions] at hr
    exact .inr ⟨hr, fun _ _ hl => (by cases hl), fun _ hch => by cases hch⟩
  | deleteExpired | deleteSession =>
    cases h
    exact .inr ⟨(Table.mem_delete.mp hr).1, fun _ _ hl => (by cases hl), fun _ hch => by cases hch⟩
  | tick | compare | recordFailure | blockLogin | recordSuccess | setPassword =>
    cases h
    exact .inr ⟨hr, fun _ _ hl => (by cases hl), fun _ hch => by cases hch⟩

/-- A session that is accepted is stored, has not expired, and belongs to an
account that is not disabled. -/
theorem lookupSession_ok {token : String} {caller : SessionCaller}
    (h : (lookupSession c token).exec s = (.ok caller, s')) :
    ∃ r ∈ s.db.sessions.rows, ∃ u ∈ s.db.users.rows, r.token = c.digest token ∧
      r.userId = u.id ∧ u.disabledAt = none ∧ s.clock < r.expiresAt ∧
      caller = ⟨User.ofRow u, c.digest token⟩ ∧ s' = s := by
  obtain ⟨⟨r, u⟩, t, hread, hchecked⟩ := exec_bind_eq_ok h
  obtain ⟨hfound, rfl⟩ := exec_queryRow_ok hread
  dsimp only at hchecked
  obtain ⟨_, t', hrequire, htimed⟩ := exec_bind_eq_ok hchecked
  obtain ⟨hdisabled, rfl⟩ := exec_require_ok hrequire
  obtain ⟨time, t'', hnow, hopen⟩ := exec_bind_eq_ok htimed
  cases hnow
  obtain ⟨r', hr, hu⟩ := Option.bind_eq_some_iff.mp hfound
  obtain ⟨u', huser, hpair⟩ := Option.bind_eq_some_iff.mp hu
  cases hpair
  obtain ⟨hrmem, htoken⟩ := Table.mem_of_find? hr
  obtain ⟨humem, hid⟩ := Table.mem_of_find? huser
  simp only [decide_eq_true_eq] at htoken hid
  split at hopen
  · obtain ⟨_, t, _, hfail⟩ := exec_bind_eq_ok hopen
    cases hfail
  · next hexpires =>
    cases hopen
    exact ⟨r, hrmem, u, humem, htoken, hid.symm, hdisabled, Int.not_le.mp hexpires, rfl, rfl⟩

theorem currentUser_ok {token : String} {exempt : Bool} {caller : SessionCaller}
    (h : (currentUser c token exempt).exec s = (.ok caller, s')) :
    (lookupSession c token).exec s = (.ok caller, s) ∧ s' = s := by
  obtain ⟨found, t, hlookup, hchecked⟩ := exec_bind_eq_ok h
  obtain ⟨_, t', hrequire, hdone⟩ := exec_bind_eq_ok hchecked
  obtain ⟨-, rfl⟩ := exec_require_ok hrequire
  cases hdone
  obtain ⟨-, -, -, -, -, -, -, -, -, rfl⟩ := lookupSession_ok hlookup
  exact ⟨hlookup, rfl⟩

theorem openSession_ok {random : Random} {req : AppLoginRequest} {u : UserRow} {time : Time}
    {reply : LoginResponse}
    (h : (openSession c random req u time).exec s = (.ok reply, s')) :
    reply.user = User.ofRow u := by
  obtain ⟨_, s₁, -, hinsert⟩ := exec_bind_eq_ok h
  obtain ⟨_, s₂, -, hexpired⟩ := exec_bind_eq_ok hinsert
  obtain ⟨_, s₃, -, hdone⟩ := exec_bind_eq_ok hexpired
  cases hdone
  rfl

theorem refuseLogin_fails {α : Type} {u : UserRow} {time : Time} {a : α} :
    (refuseLogin c u time).exec s ≠ (.ok a, s') := by
  intro h
  unfold refuseLogin at h
  split at h
  · obtain ⟨_, s₁, -, hfail⟩ := exec_bind_eq_ok h
    cases hfail
  · obtain ⟨_, s₁, -, hfail⟩ := exec_bind_eq_ok h
    cases hfail

theorem login_ok {random : Random} {req : AppLoginRequest} {reply : LoginResponse}
    (h : (login c random req).exec s = (.ok reply, s')) :
    ∃ u ∈ s.db.users.rows, u.disabledAt = none ∧ reply.user = User.ofRow u := by
  obtain ⟨_, s₁, haccepts, hread⟩ := exec_bind_eq_ok h
  obtain ⟨-, rfl⟩ := exec_require_ok haccepts
  obtain ⟨u, s₂, hrow, htimed⟩ := exec_bind_eq_ok hread
  obtain ⟨hfound, rfl⟩ := exec_queryRow_ok hrow
  obtain ⟨time, s₃, hnow, hblock⟩ := exec_bind_eq_ok htimed
  cases hnow
  obtain ⟨_, s₄, hopen, hcheck⟩ := exec_bind_eq_ok hblock
  obtain ⟨-, rfl⟩ := exec_require_ok hopen
  obtain ⟨_, s₅, hrequire, hverify⟩ := exec_bind_eq_ok hcheck
  obtain ⟨⟨henabled, -⟩, rfl⟩ := exec_require_ok hrequire
  obtain ⟨_, s₆, -, hanswer⟩ := exec_bind_eq_ok hverify
  refine ⟨u, (Table.mem_of_find? hfound).1, henabled, ?_⟩
  split at hanswer
  · exact openSession_ok hanswer
  · exact absurd hanswer refuseLogin_fails

end Cinder.Accounts
