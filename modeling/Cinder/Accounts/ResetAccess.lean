import Cinder.Accounts.AccountEffects
set_option autoImplicit false

/-!
Whether the new password or PIN of an account that was reset opens it. The three
routes leave the block of the login alone; the Host application's own
`reset_person_credentials` lifts it.
-/

namespace Cinder.Accounts
open Cinder.Host Cinder.Storage Cinder.Programs Cinder.Programs.Program

variable {c : Crypto}

/-- The account that a successful reset is about, with its new password or PIN. -/
def newCredential? : AccountRequest c → AccountReply → Option (Uuid × String)
  | .resetStudent _ student, .credentials r => some (student, r.temporaryPassword)
  | .recoverTeacher req, .recovered r => some (r.user.id, req.newPassword)
  | .recoverStudent req, .recovered r => some (r.user.id, req.newPassword)
  | _, _ => none

def SignsIn (c : Crypto) (random : Random) (req : AppLoginRequest) (id : Uuid) (s : AuthState) :
    Prop :=
  ∃ reply s', (handle c ⟨random, .login req⟩).exec s = (.ok (.session reply), s') ∧
    reply.user.id = id ∧ ∃ r ∈ s'.db.sessions.rows, r.token = c.digest reply.token ∧ r.userId = id

def SecretSet (c : Crypto) (u : UserRow) (secret : String) (s : AuthState) : Prop :=
  ∃ hash mustChange, setHash hash mustChange u ∈ s.db.users.rows ∧
    charCount secret ≤ maxPasswordChars ∧ verifyPassword c hash secret = true

section Reset
variable {s s' : AuthState} {u : UserRow}

theorem secretSet_of_update {id : Uuid} {hash secret salt : String} {f : UserRow → UserRow}
    {hf : Table.KeepsKeys f} (hhash : hashSecret c salt secret = .ok hash)
    (hsets : ∀ u, ∃ mustChange, f u = setHash hash mustChange u) (hu : u ∈ s.db.users.rows)
    (hid : u.id = id) (hs : s'.db.users = s.db.users.update (fun u => u.id = id) f hf) :
    SecretSet c u secret s' := by
  obtain ⟨mustChange, hset⟩ := hsets u
  refine ⟨hash, mustChange, ?_, hashSecret_length c hhash, hashSecret_verifies c hhash⟩
  rw [hs]
  exact Table.mem_update.mpr ⟨u, hu, by simp [hid, hset]⟩

theorem resetStudentCredentials_secret {random : Random} {caller : SessionCaller} {student : Uuid}
    {reply : CreateStudentResponse}
    (h : (resetStudentCredentials c random caller student).exec s = (.ok reply, s'))
    (hu : u ∈ s.db.users.rows) (hid : u.id = student) :
    SecretSet c u reply.temporaryPassword s' ∧ s'.clock = s.clock := by
  obtain ⟨_, t, hrequire, hreset⟩ := exec_bind_eq_ok h
  obtain ⟨-, rfl⟩ := exec_require_ok hrequire
  obtain ⟨outcome, t', hwrite, hreply⟩ := exec_bind_eq_ok hreset
  obtain ⟨hrun, rfl⟩ := exec_executeReturning_ok hwrite
  obtain ⟨hanswer, rfl⟩ := exec_ofExcept_ok hreply
  obtain ⟨reply', htx⟩ := map_snd_eq_ok hrun
  rw [htx] at hanswer
  cases hanswer
  have hdone := resetStudentTx_ok htx
  obtain ⟨pwHash, hhash, husers⟩ := hdone.users
  rw [hdone.pin]
  exact ⟨secretSet_of_update (hashTemporaryPin_secret c hhash) (fun _ => ⟨true, rfl⟩) hu hid husers,
    hdone.clock⟩

theorem recoverAccount_secret {role : Role} {found : Database → Option (Uuid × String)}
    {random : Random} {req : RecoverTeacherRequest} {reply : BootstrapTeacherResponse}
    (h : (recoverAccount c role found random req).exec s = (.ok reply, s'))
    (hu : u ∈ s.db.users.rows) (hid : u.id = reply.user.id) :
    SecretSet c u req.newPassword s' ∧ s'.clock = s.clock := by
  obtain ⟨⟨id, recoveryHash⟩, t, hread, hverify⟩ := exec_bind_eq_ok h
  obtain ⟨-, rfl⟩ := exec_queryRow_ok hread
  dsimp only at hverify
  obtain ⟨_, t', hrequire, hhashed⟩ := exec_bind_eq_ok hverify
  obtain ⟨-, rfl⟩ := exec_require_ok hrequire
  obtain ⟨pwHash, t'', hpassword, hrotated⟩ := exec_bind_eq_ok hhashed
  obtain ⟨hhash, rfl⟩ := exec_ofExcept_ok hpassword
  obtain ⟨nextHash, t₃, hnext, htimed⟩ := exec_bind_eq_ok hrotated
  obtain ⟨-, rfl⟩ := exec_ofExcept_ok hnext
  obtain ⟨time, t₄, hnow, hwritten⟩ := exec_bind_eq_ok htimed
  cases hnow
  obtain ⟨_, t₅, hwrite, hloaded⟩ := exec_bind_eq_ok hwritten
  have hrun := exec_execute_ok hwrite
  obtain ⟨user, t₆, hload, hdone⟩ := exec_bind_eq_ok hloaded
  obtain ⟨hfound, rfl⟩ := exec_queryRow_ok hload
  cases hdone
  obtain ⟨v, hv, rfl⟩ := Option.map_eq_some_iff.mp hfound
  have hvid : v.id = id := by simpa using (Table.mem_of_find? hv).2
  have hdone := run_recover hrun
  refine ⟨secretSet_of_update (hashPassword_secret c hhash).2 (fun u => ?_) hu (hid.trans hvid)
    hdone.users, hdone.clock⟩
  cases role
  · exact ⟨false, rfl⟩
  · exact ⟨u.mustChangePassword, rfl⟩

theorem newCredential_secret {call : AccountCall c} {reply : AccountReply} {secret : String}
    (h : (handle c call).exec s = (.ok reply, s'))
    (hreset : newCredential? call.request reply = some (u.id, secret))
    (hu : u ∈ s.db.users.rows) : SecretSet c u secret s' ∧ s'.clock = s.clock := by
  obtain ⟨random, request⟩ := call
  cases request with
  | resetStudent token student =>
    obtain ⟨caller, t, hcaller, hroute⟩ := exec_bind_eq_ok h
    obtain ⟨-, rfl⟩ := currentUser_ok hcaller
    obtain ⟨r, t', hexec, hdone⟩ := exec_bind_eq_ok hroute
    cases hdone
    obtain ⟨hid, rfl⟩ := Prod.mk.inj (Option.some.inj hreset)
    exact resetStudentCredentials_secret hexec hu hid.symm
  | recoverTeacher req =>
    obtain ⟨r, t, hexec, hdone⟩ := exec_bind_eq_ok h
    cases hdone
    obtain ⟨hid, rfl⟩ := Prod.mk.inj (Option.some.inj hreset)
    exact recoverAccount_secret hexec hu hid.symm
  | recoverStudent req =>
    obtain ⟨r, t, hexec, hdone⟩ := exec_bind_eq_ok h
    cases hdone
    obtain ⟨hid, rfl⟩ := Prod.mk.inj (Option.some.inj hreset)
    exact recoverAccount_secret hexec hu hid.symm
  | tick | login | bootstrap | registerTeacher | changePassword | authenticated =>
    cases reply <;> cases hreset

end Reset

section Login
variable {s : AuthState} {random : Random} {req : AppLoginRequest} {v : UserRow}

theorem userNamed?_of_mem (hv : v ∈ s.db.users.rows) :
    userNamed? s.db v.username = some v := by
  refine Table.find?_of_mem hv (by simp) fun r _ hr => ?_
  simp only [decide_eq_true_eq] at hr
  simp [Keyed.clash, hr]

theorem openSession_exec (req : AppLoginRequest) (v : UserRow) (time : Time)
    (hfresh : ∀ r ∈ s.db.sessions.rows, r.token ≠ c.digest random.token) :
    ∃ reply s', (openSession c random req v time).exec s = (.ok reply, s') ∧
      reply.user.id = v.id ∧
      ∃ r ∈ s'.db.sessions.rows, r.token = c.digest reply.token ∧ r.userId = v.id := by
  let row : SessionRow :=
    { token := c.digest random.token, userId := v.id, deviceLabel := req.deviceLabel
      createdAt := time, expiresAt := time+days sessionDays }
  let reset := s.updateUser v.id (setAttempts 0 none) (setAttempts_keeps 0 none)
  obtain ⟨sessions, hins⟩ := Table.insert_isSome (t := s.db.sessions) (r := row)
    fun r hr => decide_eq_false (hfresh r hr)
  have hrun : Engine.run (AccountStatement.insertSession (c := c) row v.pwHash) reset =
      .ok { reset with db := { reset.db with sessions } } :=
    bind_eq_ok.mpr ⟨sessions, stored_eq_ok.mpr hins, rfl⟩
  have hlive : time < row.expiresAt := Int.lt_add_of_pos_right time (by decide)
  refine ⟨⟨random.token, User.ofRow v, time+days sessionDays⟩,
    AuthState.dropSessions { reset with db := { reset.db with sessions } } fun r =>
      r.expiresAt ≤ time, ?_, rfl, row, ?_, rfl, rfl⟩
  · unfold openSession
    rw [exec_bind_ok _ (exec_write_ok _ rfl), exec_bind_ok _ (exec_write_ok _ hrun),
      exec_bind_ok _ (exec_write_ok _ rfl)]
    rfl
  · have hmem : row ∈ sessions.rows := (Table.mem_insert hins).mpr (.inr rfl)
    exact Table.mem_delete.mpr ⟨hmem, decide_eq_false (Int.not_le.mpr hlive)⟩

structure RightLogin (c : Crypto) (req : AppLoginRequest) (v : UserRow) (s : AuthState) : Prop where
  accepts : loginAccepts req
  stored : v ∈ s.db.users.rows
  username : req.username = v.username
  enabled : v.disabledAt = none
  role : v.role = req.expectedRole
  password : verifyPassword c v.pwHash req.password = true

theorem login_exec (h : RightLogin c req v s) : (login c random req).exec s =
    (if ∀ t ∈ v.loginBlockedUntil, t ≤ s.clock then openSession c random req v s.clock
      else .fail .rateLimited).exec s := by
  have hpass : ∀ {p : Prop} [Decidable p] {e : HostError}, p →
      (require p e : AccountProgram c Unit).exec s = (.ok (), s) := fun hp => by
    rw [exec_require, if_pos hp]
  have hread : (queryRow (fun s => userNamed? s.db req.username) .badCredentials :
      AccountProgram c UserRow).exec s = (.ok v, s) := by
    rw [exec_queryRow, h.username, userNamed?_of_mem h.stored]
  unfold login
  rw [exec_bind_ok _ (hpass h.accepts), exec_bind_ok _ hread,
    exec_bind_ok (p := now c) (a := s.clock) _ rfl]
  by_cases hopen : ∀ t ∈ v.loginBlockedUntil, t ≤ s.clock
  · rw [if_pos hopen, exec_bind_ok _ (hpass hopen), exec_bind_ok _ (hpass ⟨h.enabled, h.role⟩)]
    dsimp only
    rw [h.password, exec_bind_ok _ (exec_write_ok _ rfl)]
    rfl
  · rw [if_neg hopen, require, if_neg hopen]
    rfl

theorem signsIn_iff (h : RightLogin c req v s)
    (hfresh : ∀ r ∈ s.db.sessions.rows, r.token ≠ c.digest random.token) :
    SignsIn c random req v.id s ↔ ∀ t ∈ v.loginBlockedUntil, t ≤ s.clock := by
  have hhandle : (handle c ⟨random, .login req⟩).exec s =
      (login c random req >>= fun reply => pure (.session reply)).exec s := rfl
  by_cases hopen : ∀ t ∈ v.loginBlockedUntil, t ≤ s.clock
  · obtain ⟨reply, s', hs, hid, hr⟩ := openSession_exec req v s.clock hfresh
    refine iff_of_true ⟨reply, s', ?_, hid, hr⟩ hopen
    have hlogin : (login c random req).exec s = (.ok reply, s') := by
      rw [login_exec h, if_pos hopen, hs]
    rw [hhandle, exec_bind_ok _ hlogin]
    rfl
  · refine iff_of_false ?_ hopen
    rintro ⟨reply, s', hs, -⟩
    obtain ⟨reply', t, hlogin, -⟩ := exec_bind_eq_ok (hhandle ▸ hs)
    rw [login_exec h, if_neg hopen] at hlogin
    cases hlogin

end Login

/-- Right after a reset, a login with the new secret signs in if and only if the
account is not blocked. -/
theorem reset_restores_access_iff {s s' : AuthState} {call : AccountCall c} {reply : AccountReply}
    {u : UserRow} {secret : String} (h : (handle c call).exec s = (.ok reply, s'))
    (hreset : newCredential? call.request reply = some (u.id, secret))
    (hu : u ∈ s.db.users.rows) (henabled : u.disabledAt = none)
    (hname : charCount u.username ≤ 64) (random : Random) (label : Option String)
    (hlabel : ∀ l ∈ label, charCount l ≤ 120) (elapsed : Nat)
    (hfresh : ∀ r ∈ s'.db.sessions.rows, r.token ≠ c.digest random.token) :
    SignsIn c random ⟨u.username, secret, label, u.role⟩ u.id
        { s' with clock := s'.clock+elapsed } ↔
      ∀ t ∈ u.loginBlockedUntil, t ≤ s.clock+elapsed := by
  obtain ⟨⟨hash, mustChange, hmem, hlength, hverify⟩, hclock⟩ := newCredential_secret h hreset hu
  have hlogin : RightLogin c ⟨u.username, secret, label, u.role⟩ (setHash hash mustChange u)
      { s' with clock := s'.clock+elapsed } :=
    ⟨⟨hname, hlength, hlabel⟩, hmem, rfl, henabled, rfl, hverify⟩
  rw [← hclock]
  exact signsIn_iff (v := setHash hash mustChange u) hlogin hfresh

def recoverAda : AccountCall sampleCrypto :=
  ⟨sampleRandom 20 "unused", .recoverStudent ⟨"ada", "ada code", "new apples"⟩⟩

def adaBlockedUntil (blockedUntil : Option Time) : UserRow :=
  { id := 1, username := "ada", displayName := "Ada", pwHash := "h:old apple", role := .student
    createdAt := 0, loginBlockedUntil := blockedUntil }

def stateWithAda (blockedUntil : Option Time) : AuthState :=
  { sampleAccounts with db := { sampleAccounts.db with
      users := .single (adaBlockedUntil blockedUntil) } }

theorem reset_restores_access_sample :
    SignsIn sampleCrypto (sampleRandom 30 "new") ⟨"ada", "new apples", none, .student⟩ 1
      { ((handle _ recoverAda).exec (stateWithAda (some (minutes 4)))).2 with
        clock := ((handle _ recoverAda).exec (stateWithAda (some (minutes 4)))).2.clock+
          (minutes 5).toNat } := by
  have hexec : (handle _ recoverAda).exec (stateWithAda (some (minutes 4))) =
      (.ok (.recovered ⟨⟨1, "ada", "Ada", .student, none, none, none, false, 0⟩, "next code"⟩),
        ((handle _ recoverAda).exec (stateWithAda (some (minutes 4)))).2) :=
    Prod.ext (by decide +kernel) rfl
  have hiff := reset_restores_access_iff (u := adaBlockedUntil (some (minutes 4))) hexec rfl
    (by decide +kernel) rfl (by decide +kernel) (sampleRandom 30 "new") none (by decide)
    (minutes 5).toNat (by decide +kernel)
  exact hiff.mpr (by decide +kernel)

/-- The account is still blocked by five wrong passwords. -/
theorem recovered_account_stays_blocked :
    ((handle _ recoverAda).exec (stateWithAda (some (minutes 4)))).1 =
        .ok (.recovered ⟨⟨1, "ada", "Ada", .student, none, none, none, false, 0⟩, "next code"⟩) ∧
      ¬SignsIn sampleCrypto (sampleRandom 30 "new") ⟨"ada", "new apples", none, .student⟩ 1
        ((handle _ recoverAda).exec (stateWithAda (some (minutes 4)))).2 := by
  refine ⟨by decide +kernel, ?_⟩
  rintro ⟨reply, s', hs, -⟩
  have hlimited : ((handle sampleCrypto ⟨sampleRandom 30 "new",
      .login ⟨"ada", "new apples", none, .student⟩⟩).exec
      ((handle _ recoverAda).exec (stateWithAda (some (minutes 4)))).2).1 =
        .error .rateLimited := by decide +kernel
  rw [hs] at hlimited
  cases hlimited

end Cinder.Accounts
