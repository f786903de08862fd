import Cinder.Classrooms.ClassroomHandlers
set_option autoImplicit false

/-!
Every classroom that is not archived belongs to an active teacher. The account
that is disabled hands its classrooms over, but nothing stops it from handing
them over to itself.
-/

namespace Cinder.Classrooms
open Cinder.Host Cinder.Storage Cinder.Programs Cinder.Programs.Program Cinder.Accounts

variable {c : Crypto} {s s' : AuthState}

def ActiveOwner (db : Database) (owner : Uuid) : Prop :=
  ∃ u ∈ db.users.rows, u.id = owner ∧ activeTeacher u = true

def HasTeacher (s : AuthState) : Prop := ∃ u ∈ s.db.users.rows, u.role = .teacher

def NoOrphans (s : AuthState) : Prop :=
  HasTeacher s → ∀ k ∈ s.db.classrooms.rows, k.archivedAt = none →
    ActiveOwner s.db k.ownerTeacherId

instance (db : Database) (owner : Uuid) : Decidable (ActiveOwner db owner) := by
  unfold ActiveOwner
  infer_instance

instance (s : AuthState) : Decidable (NoOrphans s) := by
  unfold NoOrphans HasTeacher
  infer_instance

structure KeepsOwners (s s' : AuthState) : Prop where
  classrooms : ∀ k' ∈ s'.db.classrooms.rows, k'.archivedAt = none →
    ∃ k ∈ s.db.classrooms.rows, k.archivedAt = none ∧ k.ownerTeacherId = k'.ownerTeacherId
  active : ∀ u ∈ s.db.users.rows, activeTeacher u = true →
    ∃ u' ∈ s'.db.users.rows, u'.id = u.id ∧ activeTeacher u' = true
  teachers : HasTeacher s' → HasTeacher s

theorem ActiveOwner.keeps (h : KeepsOwners s s') {owner : Uuid} (ho : ActiveOwner s.db owner) :
    ActiveOwner s'.db owner := by
  obtain ⟨u, hu, rfl, hactive⟩ := ho
  exact h.active u hu hactive

theorem NoOrphans.keeps (h : KeepsOwners s s') (hs : NoOrphans s) : NoOrphans s' := by
  intro hteacher k' hk' hopen
  obtain ⟨k, hk, hkopen, howner⟩ := h.classrooms k' hk' hopen
  rw [← howner]
  exact (hs (h.teachers hteacher) k hk hkopen).keeps h

section Updates
variable {p : UserRow → Bool} {f : UserRow → UserRow}

theorem hasTeacher_update (hf : Table.KeepsKeys f) (hrole : ∀ u, (f u).role = u.role)
    (husers : s'.db.users = s.db.users.update p f hf) (h : HasTeacher s') : HasTeacher s := by
  obtain ⟨u', hu', hteacher⟩ := h
  rw [husers] at hu'
  obtain ⟨u, hu, rfl⟩ := Table.mem_update.mp hu'
  refine ⟨u, hu, ?_⟩
  split at hteacher
  · rwa [hrole] at hteacher
  · exact hteacher

theorem activeOwner_of_ne {owner : Uuid} (hf : Table.KeepsKeys f)
    (husers : s'.db.users = s.db.users.update p f hf) (h : ActiveOwner s.db owner) (hp : ∀ u, u.id = owner → p u = false) :
    ActiveOwner s'.db owner := by
  obtain ⟨u, hu, hid, hactive⟩ := h
  refine ⟨u, ?_, hid, hactive⟩
  rw [husers]
  exact Table.mem_update.mpr ⟨u, hu, by rw [hp u hid]; rfl⟩

theorem keepsOwners_update (hf : Table.KeepsKeys f)
    (husers : s'.db.users = s.db.users.update p f hf) (hclassrooms : s'.db.classrooms = s.db.classrooms)
    (hid : ∀ u, (f u).id = u.id) (hrole : ∀ u, (f u).role = u.role)
    (hactive : ∀ u, activeTeacher u = true → activeTeacher (f u) = true) : KeepsOwners s s' := by
  refine ⟨fun k' hk' hopen => ⟨k', hclassrooms ▸ hk', hopen, rfl⟩, fun u hu hu' => ?_,
    hasTeacher_update hf hrole husers⟩
  rw [husers]
  refine ⟨_, Table.mem_update.mpr ⟨u, hu, rfl⟩, ?_⟩
  split
  · exact ⟨hid u, hactive u hu'⟩
  · exact ⟨rfl, hu'⟩

theorem keepsOwners_updateUser (id : Uuid) (hf : Table.KeepsKeys f)
    (hid : ∀ u, (f u).id = u.id) (hrole : ∀ u, (f u).role = u.role)
    (hactive : ∀ u, activeTeacher u = true → activeTeacher (f u) = true) :
    KeepsOwners s (s.updateUser id f hf) :=
  keepsOwners_update hf rfl rfl hid hrole hactive

end Updates

theorem noOrphans_bootstrap {random : Random} {req : BootstrapTeacherRequest}
    {r : Except HostError BootstrapTeacherResponse}
    (h : bootstrapTx c random req s = .ok (r, s')) (hs : NoOrphans s) : NoOrphans s' := by
  unfold bootstrapTx at h
  split at h
  · cases h
  · split at h
    · cases h
      exact hs
    · obtain ⟨⟨user, users⟩, hins, h⟩ := bind_eq_ok.mp h
      obtain ⟨hash, -, h⟩ := bind_eq_ok.mp h
      obtain ⟨recovery, -, h⟩ := bind_eq_ok.mp h
      obtain ⟨row, hrow, rfl, hrole, henabled⟩ := insertUser_ok hins
      cases h
      intro _ k' hk' _
      have hnew : activeTeacher row = true := by simp [activeTeacher, hrole, henabled]
      dsimp only at hk'
      obtain ⟨k, -, rfl⟩ := Table.mem_update.mp hk'
      split
      · exact ⟨row, (Table.mem_insert hrow).mpr (.inr rfl), rfl, hnew⟩
      · next howned =>
        simp only [Bool.not_eq_true, Bool.not_eq_false', List.any_eq_true, Bool.and_eq_true,
          decide_eq_true_eq] at howned
        obtain ⟨o, ho, hid, hactive⟩ := howned
        exact ⟨o, ho, hid, hactive⟩

theorem noOrphans_registerTeacher {random : Random} {req : RegisterTeacherRequest}
    {r : Except HostError BootstrapTeacherResponse}
    (h : registerTeacherTx c random req s = .ok (r, s')) (hs : NoOrphans s) : NoOrphans s' := by
  unfold registerTeacherTx at h
  split at h
  · cases h
    exact hs
  · split at h
    · cases h
      exact hs
    · next hcreator =>
      obtain ⟨⟨user, users⟩, hins, h⟩ := bind_eq_ok.mp h
      obtain ⟨hash, -, h⟩ := bind_eq_ok.mp h
      obtain ⟨recovery, -, h⟩ := bind_eq_ok.mp h
      obtain ⟨row, hrow, -⟩ := insertUser_ok hins
      cases h
      intro _ k hk hopen
      have hteacher : HasTeacher s := by
        rw [Bool.not_eq_false] at hcreator
        obtain ⟨u, hu, hactive⟩ := List.any_eq_true.mp hcreator
        simp only [activeTeacher, Bool.and_eq_true, decide_eq_true_eq] at hactive
        exact ⟨u, hu, hactive.1.1⟩
      obtain ⟨u, hu, hid, hactive⟩ := hs hteacher k hk hopen
      exact ⟨u, (Table.mem_insert hrow).mpr (.inl hu), hid, hactive⟩

theorem classrooms_resetStudentTx {random : Random} {student teacher : Uuid}
    {reply : CreateStudentResponse} (h : resetStudentTx c random student teacher s = .ok (reply, s')) :
    s'.db.classrooms = s.db.classrooms := by
  unfold resetStudentTx at h
  split at h
  · cases h
  · obtain ⟨user, -, h⟩ := bind_eq_ok.mp h
    dsimp only at h
    split at h
    · cases h
    · obtain ⟨pwHash, -, h⟩ := bind_eq_ok.mp h
      obtain ⟨recoveryHash, -, h⟩ := bind_eq_ok.mp h
      obtain ⟨studentRecovery, -, h⟩ := bind_eq_ok.mp h
      obtain ⟨user', -, h⟩ := bind_eq_ok.mp h
      cases h
      rfl

theorem noOrphans_account {l : AccountStatement c} (h : l.run s = .ok s') (hs : NoOrphans s) :
    NoOrphans s' := by
  cases l with
  | bootstrap random req =>
    obtain ⟨reply, h⟩ := map_snd_eq_ok h
    exact noOrphans_bootstrap h hs
  | registerTeacher random req =>
    obtain ⟨reply, h⟩ := map_snd_eq_ok h
    exact noOrphans_registerTeacher h hs
  | resetStudent random student teacher =>
    obtain ⟨reply, h⟩ := map_snd_eq_ok h
    obtain ⟨pwHash, -, husers⟩ := (resetStudentTx_ok h).users
    exact hs.keeps (keepsOwners_update _ husers (classrooms_resetStudentTx h) (fun _ => rfl)
      (fun _ => rfl) fun _ hu => hu)
  | recover role user hash recoveryHash time =>
    have husers := (run_recover h).users
    cases h
    exact hs.keeps (keepsOwners_update _ husers (by cases role <;> rfl)
      (fun _ => by cases role <;> rfl) (fun _ => by cases role <;> rfl)
      fun _ hu => by cases role <;> exact hu)
  | insertSession row verified =>
    obtain ⟨sessions, -, h⟩ := bind_eq_ok.mp h
    cases h
    exact hs
  | recordFailure user attempts =>
    cases h
    exact hs.keeps (keepsOwners_updateUser user (countFailure_keeps attempts) (fun _ => rfl)
      (fun _ => rfl) fun _ hu => hu)
  | blockLogin user blockedUntil =>
    cases h
    exact hs.keeps (keepsOwners_updateUser user (setAttempts_keeps 0 (some blockedUntil))
      (fun _ => rfl) (fun _ => rfl) fun _ hu => hu)
  | recordSuccess user =>
    cases h
    exact hs.keeps (keepsOwners_updateUser user (setAttempts_keeps 0 none) (fun _ => rfl)
      (fun _ => rfl) fun _ hu => hu)
  | setPassword user hash =>
    cases h
    exact hs.keeps (keepsOwners_updateUser user (setHash_keeps hash false) (fun _ => rfl)
      (fun _ => rfl) fun _ hu => hu)
  | tick | compare | deleteExpired | deleteSession | deleteOtherSessions =>
    cases h
    exact hs

theorem noOrphans_createClassroom {row : ClassroomRow}
    (h : (ClassroomStatement.createClassroom row : ClassroomStatement c).run s = .ok s')
    (howner : ActiveOwner s.db row.ownerTeacherId) (hs : NoOrphans s) : NoOrphans s' := by
  simp only [ClassroomStatement.run] at h
  split at h
  · cases h
  · obtain ⟨classrooms, hins, h⟩ := bind_eq_ok.mp h
    cases h
    intro hteacher k hk hopen
    rcases (Table.mem_insert (stored_eq_ok.mp hins)).mp hk with hk | rfl
    · exact hs hteacher k hk hopen
    · exact howner

theorem keepsOwners_updateClassroom {id : Uuid} {name : String} {subjectCode : Option String}
    {description color : String} (h : (ClassroomStatement.updateClassroom id name subjectCode
      description color : ClassroomStatement c).run s = .ok s') : KeepsOwners s s' := by
  cases h
  refine ⟨fun k' hk' hopen => ?_, fun u hu hactive => ⟨u, hu, rfl, hactive⟩, fun ht => ht⟩
  dsimp only at hk'
  obtain ⟨k, hk, rfl⟩ := Table.mem_update.mp hk'
  refine ⟨k, hk, ?_⟩
  split at hopen <;> exact ⟨hopen, by split <;> rfl⟩

theorem keepsOwners_archiveClassroom {id : Uuid} {time : Time}
    (h : (ClassroomStatement.archiveClassroom id time : ClassroomStatement c).run s = .ok s') :
    KeepsOwners s s' := by
  cases h
  refine ⟨fun k' hk' hopen => ?_, fun u hu hactive => ⟨u, hu, rfl, hactive⟩, fun ht => ht⟩
  dsimp only at hk'
  obtain ⟨k, hk, rfl⟩ := Table.mem_update.mp hk'
  refine ⟨k, hk, ?_⟩
  split at hopen
  · cases hopen
  · exact ⟨hopen, by split <;> rfl⟩

theorem noOrphans_disableTeacher {id : Uuid} {time : Time}
    (h : disableTeacherTx id time s = .ok s')
    (hfree : ∀ k ∈ s.db.classrooms.rows, k.ownerTeacherId ≠ id) (hs : NoOrphans s) :
    NoOrphans s' := by
  unfold disableTeacherTx at h
  split at h
  · cases h
  · cases h
    intro hteacher k hk hopen
    have howned := hs (hasTeacher_update (setDisabled_keeps _) (fun _ => rfl) rfl hteacher) k hk hopen
    refine activeOwner_of_ne (setDisabled_keeps _) rfl howned fun u hid => ?_
    have hne := hfree k hk
    simp [isTeacherEnabled, hid, hne]

/-- The classrooms that are handed over get another active owner; the others
have one already. -/
theorem handOver_owners {id : Uuid} {transferTo : Option Uuid} {classrooms : Table ClassroomRow}
    (h : handOver s.db id transferTo = .ok classrooms)
    (haway : ownsClassrooms s.db id = true → transferTo ≠ some id)
    (howned : ∀ k ∈ s.db.classrooms.rows, k.archivedAt = none → ActiveOwner s.db k.ownerTeacherId) :
    ∀ k ∈ classrooms.rows, k.archivedAt = none →
      k.ownerTeacherId ≠ id ∧ ActiveOwner s.db k.ownerTeacherId := by
  unfold handOver at h
  split at h
  · next hfree =>
    cases h
    intro k hk hopen
    refine ⟨fun hid => ?_, howned k hk hopen⟩
    have hnot := List.any_eq_false.mp hfree k hk
    simp [hid, hopen] at hnot
  · next howns =>
    rw [Bool.not_eq_false] at howns
    cases transferTo with
    | none => cases h
    | some target =>
      dsimp only at h
      split at h
      · next htarget =>
        cases h
        obtain ⟨u, hu, hmatch⟩ := List.any_eq_true.mp htarget
        simp only [Bool.and_eq_true, decide_eq_true_eq] at hmatch
        intro k' hk' hopen
        obtain ⟨k, hk, rfl⟩ := Table.mem_update.mp hk'
        split at hopen
        · next hid =>
          rw [if_pos hid]
          exact ⟨fun ht => haway howns (congrArg some ht), u, hu, hmatch⟩
        · next hid =>
          rw [if_neg hid]
          exact ⟨by simpa using hid, howned k hk hopen⟩
      · cases h

theorem noOrphans_setPersonDisabled {id : Uuid} {disabled : Bool} {transferTo : Option Uuid}
    (h : setPersonDisabledTx id disabled transferTo s = .ok s')
    (haway : disabled = true → ownsClassrooms s.db id = true → transferTo ≠ some id)
    (hs : NoOrphans s) : NoOrphans s' := by
  unfold setPersonDisabledTx at h
  cases disabled with
  | false =>
    cases h
    refine hs.keeps (keepsOwners_updateUser id (setDisabled_keeps none) (fun _ => rfl)
      (fun _ => rfl) fun u hu => ?_)
    simp only [activeTeacher, Bool.and_eq_true, decide_eq_true_eq] at hu
    simp [activeTeacher, setDisabled, hu.1]
  | true =>
    obtain ⟨classrooms, hhand, h⟩ := bind_eq_ok.mp h
    cases h
    intro hteacher k hk hopen
    have howned := hs (hasTeacher_update (setDisabled_keeps _) (fun _ => rfl) rfl hteacher)
    obtain ⟨hne, howner⟩ := handOver_owners hhand (haway rfl) howned k hk hopen
    exact activeOwner_of_ne (setDisabled_keeps _) rfl howner fun u hid => by simpa [hid] using hne

theorem leaves_account {α : Type} (p : AccountProgram c α) (hs : NoOrphans s) :
    (p.relabel .account : ClassroomProgram c α).Leaves NoOrphans s := by
  refine leaves_of_writesOnly (c := fun l => ∃ a, l = .account a) (fun l t t' hl ht h => ?_)
    (WritesOnly.relabel (writesOnly_of_forall (fun l => ⟨l, rfl⟩) p)) hs
  obtain ⟨a, rfl⟩ := hl
  exact noOrphans_account h ht

theorem leaves_signedIn_bind {α : Type} {token : String} {f : SessionCaller → ClassroomProgram c α}
    (hs : NoOrphans s) (hf : ∀ caller, ∀ u ∈ s.db.users.rows, u.disabledAt = none →
      caller.user = User.ofRow u → (f caller).Leaves NoOrphans s) :
    (signedIn c token >>= f).Leaves NoOrphans s := by
  refine leaves_bind (leaves_account _ hs) fun caller t h => ?_
  rw [signedIn, exec_relabel fun (l : AccountStatement c) t => (rfl : Engine.run
    (ClassroomStatement.account l) t = l.run t)] at h
  obtain ⟨hlookup, rfl⟩ := currentUser_ok h
  obtain ⟨-, -, u, hu, -, -, henabled, -, rfl, -⟩ := lookupSession_ok hlookup
  exact hf _ u hu henabled rfl

theorem utcNow_readOnly : (utcNow c).ReadOnly := readOnly_query _

theorem loadClassroom_readOnly (id : Uuid) : (loadClassroom c id).ReadOnly := readOnly_queryRow _ _

theorem requireTeacherCaller_readOnly (caller : SessionCaller) :
    (requireTeacherCaller c caller).ReadOnly := readOnly_require _ _

theorem randomClassroomCode_readOnly (codes : Nat → String) (left : Nat) :
    (randomClassroomCode c codes left).ReadOnly := by
  induction left with
  | zero => trivial
  | succ left ih =>
    refine (readOnly_query _).bind fun taken => ?_
    split
    · exact ih
    · trivial

variable {caller : SessionCaller}

attribute [local irreducible] ReadOnly in
theorem create_leaves (random : Random) (codes : Nat → String) (req : CreateClassroomRequest)
    {u : UserRow} (hu : u ∈ s.db.users.rows) (henabled : u.disabledAt = none)
    (hcaller : caller.user = User.ofRow u) (hs : NoOrphans s) :
    (create c random codes caller req).Leaves NoOrphans s := by
  refine leaves_readOnly_bind (requireTeacherCaller_readOnly caller) hs fun _ hteacher => ?_
  have hactive : activeTeacher u = true := by
    have hrole := (exec_require_ok hteacher).1
    rw [hcaller] at hrole
    cases hr : u.role with
    | student => rw [User.ofRow, hr] at hrole; cases hrole
    | teacher => simp [activeTeacher, hr, henabled]
  refine leaves_readOnly_bind (readOnly_require _ _) hs fun _ _ => ?_
  refine leaves_readOnly_bind (readOnly_ofExcept _) hs fun color _ => ?_
  refine leaves_readOnly_bind utcNow_readOnly hs fun time _ => ?_
  refine leaves_readOnly_bind (randomClassroomCode_readOnly codes 20) hs fun code _ => ?_
  refine leaves_execute_bind hs fun s' h => ?_
  refine leaves_readOnly (loadClassroom_readOnly _) (noOrphans_createClassroom h ?_ hs)
  exact ⟨u, hu, by rw [hcaller]; rfl, hactive⟩

attribute [local irreducible] ReadOnly in
theorem update_leaves (id : Uuid) (req : CreateClassroomRequest) (hs : NoOrphans s) :
    (update c caller id req).Leaves NoOrphans s := by
  refine leaves_readOnly_bind (requireTeacherCaller_readOnly caller) hs fun _ _ => ?_
  refine leaves_readOnly_bind ((readOnly_query _).bind fun _ => readOnly_require _ _) hs
    fun _ _ => ?_
  refine leaves_readOnly_bind (readOnly_require _ _) hs fun _ _ => ?_
  refine leaves_readOnly_bind (readOnly_ofExcept _) hs fun color _ => ?_
  refine leaves_execute_bind hs fun s' h => ?_
  exact leaves_readOnly (loadClassroom_readOnly id) (hs.keeps (keepsOwners_updateClassroom h))

theorem archive_leaves (id : Uuid) (hs : NoOrphans s) :
    (archive c caller id).Leaves NoOrphans s := by
  refine leaves_readOnly_bind (requireTeacherCaller_readOnly caller) hs fun _ _ => ?_
  refine leaves_readOnly_bind ((readOnly_query _).bind fun _ => readOnly_require _ _) hs
    fun _ _ => ?_
  refine leaves_readOnly_bind utcNow_readOnly hs fun time _ => ?_
  exact leaves_write hs fun s' h => hs.keeps (keepsOwners_archiveClassroom h)

theorem deleteTeacher_leaves (id : Uuid) (req : DeleteTeacherRequest) (hs : NoOrphans s) :
    (deleteTeacher c caller id req).Leaves NoOrphans s := by
  refine leaves_readOnly_bind (requireTeacherCaller_readOnly caller) hs fun _ _ => ?_
  refine leaves_readOnly_bind (readOnly_require _ _) hs fun _ hself => ?_
  refine leaves_readOnly_bind (readOnly_queryRow _ _) hs fun actorHash _ => ?_
  refine leaves_readOnly_bind (readOnly_require _ _) hs fun _ _ => ?_
  refine leaves_readOnly_bind (readOnly_query _) hs fun owned hread => ?_
  refine leaves_readOnly_bind (readOnly_require _ _) hs fun _ hfree => ?_
  refine leaves_readOnly_bind utcNow_readOnly hs fun time _ => ?_
  refine leaves_execute_bind hs fun s' h => ?_
  refine noOrphans_disableTeacher h (fun k hk => ?_) hs
  cases hread
  rw [(exec_require_ok hself).1]
  simpa using List.any_eq_false.mp (exec_require_ok hfree).1 k hk

/-- Nobody who is being disabled is to hand over classrooms to himself. -/
def HandsOverToOther (call : ClassroomCall c) (s : AuthState) : Prop :=
  match call.request with
  | .setPersonDisabled _ id disabled transferTo =>
    disabled = true → ownsClassrooms s.db id = true → transferTo ≠ some id
  | _ => True

instance (call : ClassroomCall c) (s : AuthState) : Decidable (HandsOverToOther call s) := by
  unfold HandsOverToOther
  cases call.request <;> infer_instance

theorem handle_leaves (call : ClassroomCall c) (hcall : HandsOverToOther call s)
    (hs : NoOrphans s) : (handle c call).Leaves NoOrphans s := by
  have hreply : ∀ {α : Type} {reply : α → ClassroomReply} {p : ClassroomProgram c α},
      p.Leaves NoOrphans s → (p >>= fun a => .ret (reply a)).Leaves NoOrphans s :=
    fun hp => leaves_bind_readOnly hp fun _ => trivial
  obtain ⟨random, codes, request⟩ := call
  cases request with
  | account request => exact hreply (leaves_account _ hs)
  | create token req =>
    exact leaves_signedIn_bind hs fun caller u hu henabled hcaller =>
      hreply (create_leaves random codes req hu henabled hcaller hs)
  | update token id req =>
    exact leaves_signedIn_bind hs fun _ _ _ _ _ => hreply (update_leaves id req hs)
  | archive token id =>
    exact leaves_signedIn_bind hs fun _ _ _ _ _ => hreply (archive_leaves id hs)
  | deleteTeacher token id req =>
    exact leaves_signedIn_bind hs fun _ _ _ _ _ => hreply (deleteTeacher_leaves id req hs)
  | setPersonDisabled authorised id disabled transferTo =>
    refine leaves_readOnly_bind (readOnly_ofExcept _) hs fun _ _ => ?_
    exact leaves_execute_bind hs fun s' h => noOrphans_setPersonDisabled h hcall hs

/-- While nobody hands over classrooms to himself, no request orphans one. -/
theorem no_orphaned_classroom (s : AuthState) (hs : NoOrphans s) (calls : List (ClassroomCall c))
    (h : SerialMeets (handle c) HandsOverToOther calls s) :
    SerialMeets (handle c) (fun call t => NoOrphans ((handle c call).exec t).2) calls s := by
  refine SerialMeets.of_keeps (I := NoOrphans) (fun call t ht hcall => ?_) hs h
  have hleaves := handle_leaves call hcall ht
  exact ⟨hleaves, hleaves⟩

def disableTim (transferTo : Option Uuid) : ClassroomCall sampleCrypto where
  random := sampleRandom 20 "console"
  codes _ := "K7M2PQRS"
  request := .setPersonDisabled (.ok ()) 2 true transferTo

def withInvitation : AuthState :=
  { sampleAccounts with db := { sampleAccounts.db with
      teacherInvitePin := some
        { pinHash := "h:12345678", createdBy := some 2, expiresAt := minutes 15 } } }

def eveRegisters : ClassroomCall sampleCrypto where
  random := sampleRandom 7 "eve"
  codes _ := "K7M2PQRS"
  request := .account (.registerTeacher ⟨"eve", "Eve", "green chalk", "12345678"⟩)

theorem no_orphaned_classroom_sample :
    SerialMeets (handle sampleCrypto) (fun call t => NoOrphans ((handle sampleCrypto call).exec t).2)
      [eveRegisters, disableTim (some 7)] withInvitation :=
  no_orphaned_classroom withInvitation (by decide +kernel) _ (by decide +kernel)

/-- Tim is disabled, and his classroom is handed over to him. -/
theorem classroom_handed_to_its_disabled_owner :
    NoOrphans sampleAccounts ∧
      ¬SerialMeets (handle sampleCrypto)
        (fun call t => NoOrphans ((handle sampleCrypto call).exec t).2)
        [disableTim (some 2)] sampleAccounts := by
  decide +kernel

end Cinder.Classrooms
