import Cinder.Accounts.AccountEffects
import Cinder.Programs.SerialRuns
set_option autoImplicit false

/-!
What the holder of a disabled account can still do: requests without a session,
and requests with the sessions of the account, one at a time.
-/

namespace Cinder.Accounts
open Cinder.Host Cinder.Storage Cinder.Programs Cinder.Programs.Program

variable {c : Crypto}

def Disabled (id : Uuid) (s : AuthState) : Prop :=
  ∃ u ∈ s.db.users.rows, u.id = id ∧ u.disabledAt.isSome = true

instance (id : Uuid) (s : AuthState) : Decidable (Disabled id s) := by
  unfold Disabled
  infer_instance

/-- The hashes of the account are as in `s`, it has no new session, and it is
still disabled. -/
structure AccountFrozen (id : Uuid) (s t : AuthState) : Prop where
  account : (user? t.db id).map (fun u => (u.pwHash, u.disabledAt)) =
    (user? s.db id).map fun u => (u.pwHash, u.disabledAt)
  teacherRecovery : t.db.teacherRecovery.find? (fun r => r.userId = id) =
    s.db.teacherRecovery.find? fun r => r.userId = id
  studentRecovery : t.db.studentRecovery.find? (fun r => r.userId = id) =
    s.db.studentRecovery.find? fun r => r.userId = id
  sessions : ∀ r ∈ t.db.sessions.rows, r.userId = id → r ∈ s.db.sessions.rows

/-- The statement gives the account neither a hash nor a session. -/
def AccountStatement.Spares (id : Uuid) : AccountStatement c → Prop
  | .insertSession row _ => row.userId ≠ id
  | .setPassword user _ => user ≠ id
  | .recover _ user _ _ _ => user ≠ id
  | .resetStudent _ user _ => user ≠ id
  | _ => True

section Steps
variable {id : Uuid} {s t u : AuthState}

theorem AccountFrozen.refl (id : Uuid) (s : AuthState) : AccountFrozen id s s :=
  ⟨rfl, rfl, rfl, fun _ hr _ => hr⟩

theorem AccountFrozen.trans (h : AccountFrozen id s t) (h' : AccountFrozen id t u) :
    AccountFrozen id s u :=
  ⟨h'.account.trans h.account, h'.teacherRecovery.trans h.teacherRecovery,
    h'.studentRecovery.trans h.studentRecovery,
    fun r hr hid => h.sessions r (h'.sessions r hr hid) hid⟩

theorem user?_of_mem {v : UserRow} (hv : v ∈ s.db.users.rows) : user? s.db v.id = some v :=
  Table.find?_of_mem hv (by simp) fun r _ hr => by
    simp only [decide_eq_true_eq] at hr
    simp [Keyed.clash, hr]

theorem Disabled.of_frozen (h : AccountFrozen id s t) (hs : Disabled id s) : Disabled id t := by
  obtain ⟨v, hv, rfl, hdisabled⟩ := hs
  have haccount := h.account
  rw [user?_of_mem hv] at haccount
  obtain ⟨v', hv', heq⟩ := Option.map_eq_some_iff.mp haccount
  obtain ⟨hmem, hid⟩ := Table.mem_of_find? hv'
  exact ⟨v', hmem, by simpa using hid, by rw [(Prod.mk.inj heq).2]; exact hdisabled⟩

theorem Disabled.enabled_ne (hs : Disabled id s) {v : UserRow} (hv : v ∈ s.db.users.rows)
    (henabled : v.disabledAt = none) : v.id ≠ id := by
  rintro rfl
  obtain ⟨v', hv', hid, hdisabled⟩ := hs
  have hsame : v' = v := Table.eq_of_clash hv' hv (by simp [Keyed.clash, hid])
  rw [hsame, henabled] at hdisabled
  cases hdisabled

theorem user?_update {target : Uuid} {f : UserRow → UserRow}
    (hf : Table.KeepsKeys f) {db : Database} (hid : ∀ v, (f v).id = v.id)
    (hkeeps : target ≠ id ∨ ∀ v, (f v).pwHash = v.pwHash ∧ (f v).disabledAt = v.disabledAt)
    (hdb : db.users = s.db.users.update (fun v => v.id = target) f hf) :
    (user? db id).map (fun v => (v.pwHash, v.disabledAt)) =
      (user? s.db id).map fun v => (v.pwHash, v.disabledAt) := by
  unfold user?
  rw [hdb, Table.find?_update (f := f) fun v => by rw [hid], Option.map_map]
  refine Option.map_congr fun v hv => ?_
  have hvid : v.id = id := by simpa using (Table.mem_of_find? hv).2
  rcases hkeeps with hne | hsame
  · simp [hvid, Ne.symm hne]
  · simp only [Function.comp]
    split
    · rw [(hsame v).1, (hsame v).2]
    · rfl

theorem frozen_registers (h : Registers s t) (hs : Disabled id s) : AccountFrozen id s t := by
  have hsessions : ∀ r ∈ t.db.sessions.rows, r.userId = id → r ∈ s.db.sessions.rows :=
    fun r hr _ => h.sessions ▸ hr
  rcases h.account with ⟨husers, hrecovery⟩ | ⟨row, recovery, hrow, howner, hrecovery⟩
  · exact ⟨by rw [user?, husers, user?], by rw [hrecovery], by rw [h.studentRecovery], hsessions⟩
  · obtain ⟨v, hv, rfl, -⟩ := hs
    have hne : row.id ≠ v.id := fun he => by
      have hclash := Table.clash_insert hrow hv
      simp [Keyed.clash, he] at hclash
    refine ⟨?_, ?_, by rw [h.studentRecovery], hsessions⟩
    · rw [user?, Table.find?_insert_other hrow (by simpa using hne), user?]
    · exact Table.find?_insert_other hrecovery (by simpa [howner] using hne)

theorem recovery_rotated {recoveries : Table RecoveryRow} {user : Uuid} {hash : String}
    {time : Time} (hne : user ≠ id) :
    (recoveries.update (fun r => r.userId = user) (rotate hash time)
      (rotate_keeps hash time)).find? (fun r => r.userId = id) =
        recoveries.find? fun r => r.userId = id :=
  Table.find?_update_other (fun _ => rfl) fun r hr => by
    simp only [decide_eq_true_eq] at hr
    simp [hr, Ne.symm hne]

theorem frozen_recovers {role : Role} {user : Uuid} {hash recoveryHash : String} {time : Time}
    (h : Recovers role user hash recoveryHash time s t) (hne : user ≠ id) :
    AccountFrozen id s t := by
  refine ⟨user?_update _ (fun v => by cases role <;> rfl) (.inl hne) h.users, ?_, ?_, fun r hr _ => ?_⟩
  · rw [h.teacherRecovery]
    split
    · exact recovery_rotated hne
    · rfl
  · rw [h.studentRecovery]
    split
    · exact recovery_rotated hne
    · rfl
  · rw [h.sessions] at hr
    exact (Table.mem_delete.mp hr).1

theorem frozen_resets {random : Random} {student : Uuid} {reply : CreateStudentResponse}
    (h : ResetsStudent c random student s reply t) (hne : student ≠ id) : AccountFrozen id s t := by
  obtain ⟨pwHash, -, husers⟩ := h.users
  obtain ⟨recoveryHash, hrecovery⟩ := h.studentRecovery
  refine ⟨user?_update (setHash_keeps pwHash true) (fun _ => rfl) (.inl hne) husers, by rw [h.teacherRecovery], ?_,
    fun r hr _ => ?_⟩
  · refine Table.find?_upsert_other hrecovery (fun _ => rfl) (fun r hr => ?_) (by simpa using hne)
    simp only [decide_eq_true_eq] at hr
    simp [hr, Ne.symm hne]
  · rw [h.sessions] at hr
    exact (Table.mem_delete.mp hr).1

theorem frozen_step {l : AccountStatement c} (h : l.run s = .ok t) (hl : l.Spares id)
    (hs : Disabled id s) : AccountFrozen id s t := by
  cases l with
  | insertSession row verified =>
    obtain ⟨sessions, hins, h⟩ := bind_eq_ok.mp h
    cases h
    refine ⟨rfl, rfl, rfl, fun r hr hid => ?_⟩
    rcases (Table.mem_insert (stored_eq_ok.mp hins)).mp hr with hold | rfl
    · exact hold
    · exact absurd hid hl
  | recover role user hash recoveryHash time => exact frozen_recovers (run_recover h) hl
  | resetStudent random student teacher =>
    obtain ⟨reply, h⟩ := map_snd_eq_ok h
    exact frozen_resets (resetStudentTx_ok h) hl
  | bootstrap random req =>
    obtain ⟨reply, h⟩ := map_snd_eq_ok h
    exact frozen_registers (bootstrapTx_registers h) hs
  | registerTeacher random req =>
    obtain ⟨reply, h⟩ := map_snd_eq_ok h
    exact frozen_registers (registerTeacherTx_registers h) hs
  | setPassword user hash =>
    cases h
    exact ⟨user?_update (setHash_keeps hash false) (fun _ => rfl) (.inl hl) rfl, rfl, rfl,
      fun _ hr _ => hr⟩
  | recordFailure user attempts =>
    cases h
    exact ⟨user?_update (countFailure_keeps attempts) (fun _ => rfl) (.inr fun _ => ⟨rfl, rfl⟩) rfl,
      rfl, rfl, fun _ hr _ => hr⟩
  | blockLogin user blockedUntil =>
    cases h
    exact ⟨user?_update (setAttempts_keeps 0 (some blockedUntil)) (fun _ => rfl)
      (.inr fun _ => ⟨rfl, rfl⟩) rfl, rfl, rfl, fun _ hr _ => hr⟩
  | recordSuccess user =>
    cases h
    exact ⟨user?_update (setAttempts_keeps 0 none) (fun _ => rfl) (.inr fun _ => ⟨rfl, rfl⟩) rfl,
      rfl, rfl, fun _ hr _ => hr⟩
  | deleteExpired | deleteSession | deleteOtherSessions =>
    cases h
    exact ⟨rfl, rfl, rfl, fun r hr _ => (Table.mem_delete.mp hr).1⟩
  | tick | compare =>
    cases h
    exact ⟨rfl, rfl, rfl, fun _ hr _ => hr⟩

theorem leaves_frozen {α : Type} {p : AccountProgram c α}
    (hp : p.WritesOnly (AccountStatement.Spares id)) (hs : Disabled id s) :
    p.Leaves (AccountFrozen id s) s := by
  have hleaves := leaves_of_writesOnly (I := fun t => AccountFrozen id s t ∧ Disabled id t)
    (fun l t t' hl ht h => ?_) hp ⟨.refl id s, hs⟩
  · exact hleaves.1
  · have hstep := frozen_step h hl ht.2
    exact ⟨ht.1.trans hstep, ht.2.of_frozen hstep⟩

end Steps

/-- A request without a session, or one whose token opens no session of another
account. -/
def OfHolder (id : Uuid) (call : AccountCall c) (s : AuthState) : Prop :=
  match call.request with
  | .changePassword token _ => ∀ r ∈ s.db.sessions.rows, r.token = c.digest token → r.userId = id
  | .resetStudent token _ => ∀ r ∈ s.db.sessions.rows, r.token = c.digest token → r.userId = id
  | .authenticated token _ _ =>
    ∀ r ∈ s.db.sessions.rows, r.token = c.digest token → r.userId = id
  | _ => True

/-- No student's recovery that names the account comes with its code and an
admissible password. -/
def RecoveryRefused (id : Uuid) (call : AccountCall c) (s : AuthState) : Prop :=
  match call.request with
  | .recoverStudent req =>
    ∀ found ∈ recoverableStudent? s.db req.username, found.1 = id →
      ¬(verifyPassword c found.2 req.recoveryCode = true ∧
        8 ≤ charCount req.newPassword ∧ charCount req.newPassword ≤ maxPasswordChars)
  | _ => True

instance (id : Uuid) (call : AccountCall c) (s : AuthState) : Decidable (OfHolder id call s) := by
  unfold OfHolder
  cases call.request <;> infer_instance

instance (id : Uuid) (call : AccountCall c) (s : AuthState) :
    Decidable (RecoveryRefused id call s) := by
  unfold RecoveryRefused
  cases call.request <;> infer_instance

/-- The request signs in to the account, or is let through with its session. -/
def AuthenticatesAs (id : Uuid) (call : AccountCall c) (s : AuthState) : Prop :=
  match call.request with
  | .login req => ∃ reply s', (login c call.random req).exec s = (.ok reply, s') ∧
      reply.user.id = id
  | .changePassword token _ => ∃ caller s', (lookupSession c token).exec s = (.ok caller, s') ∧
      caller.user.id = id
  | .resetStudent token _ => ∃ caller s', (lookupSession c token).exec s = (.ok caller, s') ∧
      caller.user.id = id
  | .authenticated token _ _ => ∃ caller s',
      (lookupSession c token).exec s = (.ok caller, s') ∧ caller.user.id = id
  | _ => False

section Requests
variable {id : Uuid} {s s' : AuthState}

theorem lookupSession_refused {token : String} {caller : SessionCaller} (hs : Disabled id s)
    (hid : caller.user.id = id) : (lookupSession c token).exec s ≠ (.ok caller, s') := by
  intro h
  obtain ⟨-, -, u, hu, -, -, henabled, -, rfl, -⟩ := lookupSession_ok h
  exact hs.enabled_ne hu henabled hid

theorem withSession_leaves {α : Type} {token : String} {exempt : Bool}
    {f : SessionCaller → AccountProgram c α} (hs : Disabled id s)
    (htoken : ∀ r ∈ s.db.sessions.rows, r.token = c.digest token → r.userId = id) :
    (currentUser c token exempt >>= f).Leaves (AccountFrozen id s) s := by
  have hfrozen : (currentUser c token exempt).Leaves (AccountFrozen id s) s := by
    refine leaves_frozen ((lookupSession_writes token trivial).bind fun caller => ?_) hs
    exact (readOnly_require _ _).writesOnly.bind fun _ => trivial
  unfold Leaves at hfrozen ⊢
  rw [exec_bind]
  rcases hexec : (currentUser c token exempt).exec s with ⟨outcome, t⟩
  rw [hexec] at hfrozen
  cases outcome with
  | error e => exact hfrozen
  | ok caller =>
    obtain ⟨r, hr, u, hu, hrtoken, hru, henabled, -, -, -⟩ :=
      lookupSession_ok (currentUser_ok hexec).1
    exact absurd (hru.symm.trans (htoken r hr hrtoken)) (hs.enabled_ne hu henabled)

theorem login_leaves (random : Random) (req : AppLoginRequest) (hs : Disabled id s) :
    (login c random req).Leaves (AccountFrozen id s) s := by
  have hrefl := AccountFrozen.refl id s
  refine leaves_readOnly_bind (readOnly_require _ _) hrefl fun _ _ => ?_
  refine leaves_readOnly_bind (readOnly_queryRow _ _) hrefl fun u hread => ?_
  refine leaves_readOnly_bind (now_readOnly c) hrefl fun time _ => ?_
  refine leaves_readOnly_bind (readOnly_require _ _) hrefl fun _ _ => ?_
  refine leaves_readOnly_bind (readOnly_require _ _) hrefl fun _ hrequire => ?_
  have hu := (Table.mem_of_find? (exec_queryRow_ok hread).1).1
  have hne := hs.enabled_ne hu (exec_require_ok hrequire).1.1
  refine leaves_frozen (WritesOnly.bind (writesOnly_execute trivial) fun _ => ?_) hs
  split
  · exact openSession_writes random req u time trivial (fun row hrow he => hne (hrow.symm.trans he))
      trivial
  · exact refuseLogin_writes u time (fun _ => trivial) fun _ => trivial

theorem login_refused {random : Random} {req : AppLoginRequest} {reply : LoginResponse}
    (hs : Disabled id s) (hid : reply.user.id = id) :
    (login c random req).exec s ≠ (.ok reply, s') := by
  intro h
  obtain ⟨u, hu, henabled, huser⟩ := login_ok h
  exact hs.enabled_ne hu henabled (by rw [← hid, huser]; rfl)

theorem recoverAccount_leaves {role : Role} {found : Database → Option (Uuid × String)}
    (random : Random) (req : RecoverTeacherRequest) (hs : Disabled id s)
    (hfound : ∀ x ∈ found s.db, x.1 = id → ¬(verifyPassword c x.2 req.recoveryCode = true ∧
      8 ≤ charCount req.newPassword ∧ charCount req.newPassword ≤ maxPasswordChars)) :
    (recoverAccount c role found random req).Leaves (AccountFrozen id s) s := by
  have hrefl := AccountFrozen.refl id s
  refine leaves_readOnly_bind (readOnly_queryRow _ _) hrefl fun x hread => ?_
  refine leaves_readOnly_bind (readOnly_require _ _) hrefl fun _ hrequire => ?_
  refine leaves_readOnly_bind (readOnly_ofExcept _) hrefl fun pwHash hhash => ?_
  have hne : x.1 ≠ id := fun he => by
    obtain ⟨hlong, hsecret⟩ := hashPassword_secret c (exec_ofExcept_ok hhash).1
    exact hfound x (exec_queryRow_ok hread).1 he
      ⟨(exec_require_ok hrequire).1, hlong, hashSecret_length c hsecret⟩
  refine leaves_frozen ?_ hs
  refine (readOnly_ofExcept _).writesOnly.bind fun nextHash => ?_
  refine (now_readOnly c).writesOnly.bind fun time => ?_
  refine WritesOnly.bind (writesOnly_execute hne) fun _ => ?_
  exact (loadUser_readOnly c x.1).writesOnly.bind fun _ => trivial

theorem handle_leaves (call : AccountCall c) (hs : Disabled id s) (hcall : OfHolder id call s)
    (hrefused : RecoveryRefused id call s) : (handle c call).Leaves (AccountFrozen id s) s := by
  have hreply : ∀ {α : Type} {reply : α → AccountReply} {p : AccountProgram c α},
      p.Leaves (AccountFrozen id s) s → (replying reply p).Leaves (AccountFrozen id s) s :=
    fun hp => leaves_bind_readOnly hp fun _ => trivial
  obtain ⟨random, request⟩ := call
  cases request with
  | tick elapsed => exact hreply (leaves_frozen (writesOnly_execute trivial) hs)
  | login req => exact hreply (login_leaves random req hs)
  | recoverTeacher req =>
    refine hreply (recoverAccount_leaves random req hs fun x hx he => ?_)
    obtain ⟨u, hu, hrow⟩ := Option.bind_eq_some_iff.mp hx
    obtain ⟨r, -, hpair⟩ := Option.bind_eq_some_iff.mp hrow
    cases hpair
    obtain ⟨hmem, hmatch⟩ := Table.mem_of_find? hu
    simp only [Bool.and_eq_true, Option.isNone_iff_eq_none] at hmatch
    exact absurd he (hs.enabled_ne hmem hmatch.2)
  | recoverStudent req => exact hreply (recoverAccount_leaves random req hs hrefused)
  | bootstrap req =>
    exact hreply (leaves_frozen (WritesOnly.bind ⟨trivial, fun _ => trivial⟩ fun _ =>
      (readOnly_ofExcept _).writesOnly) hs)
  | registerTeacher req =>
    exact hreply (leaves_frozen ((readOnly_require _ _).writesOnly.bind fun _ =>
      WritesOnly.bind ⟨trivial, fun _ => trivial⟩ fun _ => (readOnly_ofExcept _).writesOnly) hs)
  | changePassword token req => exact withSession_leaves hs hcall
  | resetStudent token student => exact withSession_leaves hs hcall
  | authenticated token exempt route => exact withSession_leaves hs hcall

theorem not_authenticatesAs (call : AccountCall c) (hs : Disabled id s) :
    ¬AuthenticatesAs id call s := by
  obtain ⟨random, request⟩ := call
  cases request with
  | login req =>
    rintro ⟨reply, s', hexec, hid⟩
    exact login_refused hs hid hexec
  | changePassword | resetStudent | authenticated =>
    rintro ⟨caller, s', hexec, hid⟩
    exact lookupSession_refused hs hid hexec
  | tick | recoverTeacher | recoverStudent | bootstrap | registerTeacher => exact fun h => h

end Requests

/-- While no recovery of it succeeds, a disabled account stays as it is: nobody
becomes its user, and it gets no session and no new hash. -/
theorem disabled_account_frozen (id : Uuid) (s : AuthState) (hs : Disabled id s)
    (calls : List (AccountCall c)) (h : SerialMeets (handle c)
      (fun call t => OfHolder id call t ∧ RecoveryRefused id call t) calls s) :
    SerialMeets (handle c) (fun call t => ¬AuthenticatesAs id call t ∧
      AccountFrozen id s ((handle c call).exec t).2) calls s := by
  refine SerialMeets.of_keeps (I := AccountFrozen id s) (fun call t ht hcall => ?_)
    (.refl id s) h
  have hdisabled := hs.of_frozen ht
  have hstep := ht.trans (handle_leaves call hdisabled hcall.1 hcall.2)
  exact ⟨hstep, not_authenticatesAs call hdisabled, hstep⟩

/-- The student's account is disabled, with a session still open. -/
def withoutAda : AuthState :=
  { sampleAccounts with db := { sampleAccounts.db with
      users := .single { id := 1, username := "ada", displayName := "Ada", pwHash := "h:old apple"
                         role := .student, createdAt := 0, disabledAt := some 0 }
      sessions := .single ⟨"d:ada", 1, none, 0, days 30⟩ } }

def holderCalls : List (AccountCall sampleCrypto) :=
  [⟨sampleRandom 20 "first", .login (sampleLogin "old apple")⟩,
    ⟨sampleRandom 30 "second", .recoverStudent ⟨"ada", "a guess", "new apples"⟩⟩,
    ⟨sampleRandom 40 "third", .changePassword "ada" ⟨"old apple", "new apples"⟩⟩]

theorem disabled_account_frozen_sample :
    SerialMeets (handle sampleCrypto) (fun call t => ¬AuthenticatesAs 1 call t ∧
      AccountFrozen 1 withoutAda ((handle sampleCrypto call).exec t).2) holderCalls withoutAda :=
  disabled_account_frozen 1 withoutAda (by decide +kernel) holderCalls (by decide +kernel)

/-- With the recovery code the holder rotates both secrets. -/
theorem disabled_student_recovers :
    let call : AccountCall sampleCrypto :=
      ⟨sampleRandom 30 "second", .recoverStudent ⟨"ada", "ada code", "new apples"⟩⟩
    Disabled 1 withoutAda ∧ OfHolder 1 call withoutAda ∧
      ¬SerialMeets (handle sampleCrypto) (fun call t => ¬AuthenticatesAs 1 call t ∧
        AccountFrozen 1 withoutAda ((handle sampleCrypto call).exec t).2) [call] withoutAda := by
  refine ⟨by decide +kernel, trivial, fun h => ?_⟩
  have haccount := h.1.2.account
  revert haccount
  decide +kernel

end Cinder.Accounts
