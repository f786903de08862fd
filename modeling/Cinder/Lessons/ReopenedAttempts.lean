import Cinder.Lessons.QuizDeadlines
set_option autoImplicit false

namespace Cinder.Lessons
open Cinder.Host Cinder.Storage Cinder.Programs Cinder.Programs.Program Cinder.Programs.Protocol
open Cinder.Quizzes hiding handle replying
open Cinder.LiveSessions (LiveStore LiveStoreStatement LiveCall LiveReply SessionStatement
  SessionChange)

structure Sound (db : Database) : Prop where
  students : ∀ a ∈ db.quizAttempts.rows, (user? db a.studentId).isSome = true
  enrolments : ∀ e ∈ db.classroomEnrolments.rows, (user? db e.studentId).isSome = true
  limits : ∀ v ∈ db.quizVersions.rows, ∀ m ∈ v.timeLimitMinutes, 0 < m

def KeepsSound : QuizStatement → Database → Prop
  | .insertAttempt row, db => (user? db row.studentId).isSome = true
  | .publishQuiz quiz _ _ _ _, _ => ∀ m ∈ quiz.timeLimitMinutes, 0 < m
  | _, _ => True

def SamePeople (db db' : Database) : Prop :=
  db'.users = db.users ∧ db'.classroomEnrolments = db.classroomEnrolments

section Statements
variable {db db' : Database}

theorem SamePeople.user? (h : SamePeople db db') (id : Uuid) :
    Host.user? db' id = Host.user? db id := by
  rw [Host.user?, h.1, Host.user?]

theorem run_people {l : QuizStatement} (h : l.run db = .ok db') : SamePeople db db' := by
  cases l with
  | createQuiz quiz questions fresh entry =>
    obtain ⟨_, _, h⟩ := bind_eq_ok.mp h
    obtain ⟨_, _, h⟩ := bind_eq_ok.mp h
    cases h; exact ⟨rfl, rfl⟩
  | publishQuiz quiz versionId fresh now entry =>
    obtain ⟨_, _, h⟩ := bind_eq_ok.mp h
    obtain ⟨_, _, h⟩ := bind_eq_ok.mp h
    cases h; exact ⟨rfl, rfl⟩
  | updateQuiz | insertDelivery | insertAttempt | upsertResponse =>
    obtain ⟨_, _, h⟩ := bind_eq_ok.mp h
    cases h; exact ⟨rfl, rfl⟩
  | archiveQuiz | markSubmitted | writeScore | reopenAttempt | gradeResponse | releaseResults
  | audit => cases h; exact ⟨rfl, rfl⟩

theorem sound_quiz {l : QuizStatement} (h : l.run db = .ok db') (hl : KeepsSound l db)
    (hs : Sound db) : Sound db' := by
  have hpeople := run_people h
  refine ⟨fun a' ha' => ?_, fun e he => ?_, fun v hv => ?_⟩
  · rw [hpeople.user?]
    rcases (run_attempts_rows h).1 a' ha' with ⟨a, ha, hsame⟩ | ⟨row, rfl, rfl⟩
    · rw [hsame.2.2.1]
      exact hs.students a ha
    · exact hl
  · rw [hpeople.2] at he
    rw [hpeople.user?]
    exact hs.enrolments e he
  · rcases (run_versions_rows h).1 v hv with hold | ⟨quiz, versionId, fresh, now, entry, rfl, rfl⟩
    · exact hs.limits v hold
    · exact hl

theorem sound_change {l : SessionStatement} (h : SessionChange db l db') (hs : Sound db) :
    SamePeople db db' ∧ Sound db' := by
  have hsame : db'.users = db.users ∧ db'.classroomEnrolments = db.classroomEnrolments ∧
      db'.quizAttempts = db.quizAttempts ∧ db'.quizVersions = db.quizVersions := by
    cases h <;> exact ⟨rfl, rfl, rfl, rfl⟩
  obtain ⟨husers, henrolments, hattempts, hversions⟩ := hsame
  have hpeople : SamePeople db db' := ⟨husers, henrolments⟩
  refine ⟨hpeople, fun a ha => ?_, fun e he => ?_, fun v hv => ?_⟩
  · rw [hpeople.user?]
    exact hs.students a (hattempts ▸ ha)
  · rw [hpeople.user?]
    exact hs.enrolments e (henrolments ▸ he)
  · exact hs.limits v (hversions ▸ hv)

end Statements

def LessonStatement.keepsSound (l : LessonStatement) (s : LiveStore) : Prop :=
  match l with
  | .quiz l => KeepsSound l s.lib.school
  | .live _ => True

theorem sound_step {s s' : LiveStore} {l : LessonStatement} (h : l.run s = .ok s')
    (hl : l.keepsSound s) (hs : Sound s.lib.school) :
    SamePeople s.lib.school s'.lib.school ∧ Sound s'.lib.school := by
  cases l with
  | quiz l => exact ⟨run_people (run_quiz h), sound_quiz (run_quiz h) hl hs⟩
  | live l =>
    cases l with
    | utcNow now => cases h; exact ⟨⟨rfl, rfl⟩, hs⟩
    | school l =>
      obtain ⟨db', hchange, rfl⟩ := LiveStoreStatement.run_school h
      exact sound_change hchange hs

section Handlers
variable {ι : Type} (i : ι) (env : Env) (user : CurrentUser) (id : Uuid)

/-- Every statement keeps the tables sound, if the handlers see to it. -/
def soundness (ι : Type) : Protocol ι LiveStore LessonStatement where
  inv w := Sound w.state.lib.school
  guard _ _ _ := True
  promise _ l w := l.keepsSound w.state
  inv_step _ _ _ _ hi _ hp hw := (sound_step hw.1 hp hi).2

def Harmless (l : QuizStatement) : Prop := ∀ db, KeepsSound l db

theorem issued_harmless {request : QuizRequest} {l : QuizStatement} (h : Issued request l)
    (hstart : ∀ id, request ≠ .start id) : Harmless l := by
  intro db
  cases h with
  | start => exact absurd rfl (hstart _)
  | publish hvalid =>
    obtain ⟨_, _, h⟩ := bind_eq_ok.mp hvalid
    obtain ⟨_, _, h⟩ := bind_eq_ok.mp h
    obtain ⟨_, hlimit, -⟩ := bind_eq_ok.mp h
    intro m hm
    have hpos := checked_ok hlimit
    rw [draftRequest, hm, Option.all_some] at hpos
    simp only [Bool.and_eq_true, decide_eq_true_eq] at hpos
    exact hpos.1
  | ordinary hordinary =>
    cases l with
    | insertAttempt | publishQuiz => cases hordinary
    | _ => trivial
  | create | update | archive | archiveAudit | duplicate | reopen => trivial

variable {P : LessonWorld ι → Prop} (hP : (soundness ι).Stable i P)
include hP in
theorem follows_harmless {α : Type} {p : QuizProgram α} (hp : p.WritesOnly Harmless) :
    (soundness ι).Follows i (fun _ _ => True) (ofQuiz p) P := by
  refine Follows.weaken hP (fun _ _ => trivial) ?_
  exact Follows.of_writesOnly (fun l w h => h w.state)
    (WritesOnly.within (c := fun l => ∀ s, l.keepsSound s) (hp.imp fun l h s => h _))

def Known (id : Uuid) (w : LessonWorld ι) : Prop := (user? w.state.lib.school id).isSome = true

theorem known_stable : (soundness ι).Stable i (Known id) := by
  intro j l w w' _ hknown hinv _ hpromise hwrote
  have hpeople := (sound_step hwrote.1 hpromise hinv).1
  unfold Known
  rw [hpeople.user?]
  exact hknown

theorem known_of_enrolled {db : Database} (hs : Sound db) {classroomId : Uuid}
    (h : enrolled db classroomId id = true) : (user? db id).isSome = true := by
  obtain ⟨e, he, hsame⟩ := List.any_eq_true.mp h
  simp only [Bool.and_eq_true, decide_eq_true_eq] at hsame
  rw [← hsame.2]
  exact hs.enrolments e he

theorem startAttempt_keeps_sound : (soundness ι).Follows i (fun _ _ => True)
    (ofQuiz (startAttempt env user id)) (fun _ => True) := by
  have htrue := (soundness ι).stable_const i True
  have hknown := known_stable i user.id
  unfold startAttempt
  refine follows_seen_bind htrue (requireStudent_readOnly _) fun _ => ?_
  refine follows_seen_bind htrue (loadDelivery_readOnly _ _) fun delivery => ?_
  refine follows_checked_bind htrue fun _ => ?_
  refine ⟨htrue, fun w hinv _ => ⟨fun w' => enrolled w.state.lib.school delivery.classroomId
    user.id = true → Known user.id w', known_of_enrolled user.id hinv, ?_⟩⟩
  have hstable : (soundness ι).Stable i fun w' => enrolled w.state.lib.school delivery.classroomId
      user.id = true → Known user.id w' :=
    fun j l w₁ w₂ hj h hinv hguard hpromise hwrote henrolled =>
      hknown j l w₁ w₂ hj (h henrolled) hinv hguard hpromise hwrote
  refine follows_checked_bind hstable fun henrolled => ?_
  refine Follows.weaken hstable (fun _ h => h henrolled) ?_
  refine follows_checked_bind hknown fun _ => ?_
  refine follows_seen_bind hknown (activeLiveDeadline_readOnly _ _ _) fun liveEnd => ?_
  refine follows_seen_bind hknown (readOnly_query _) fun existing => ?_
  cases existing with
  | some a => exact follows_harmless i hknown (loadAttempt_readOnly _ _ _ _).writesOnly
  | none =>
    rw [ofQuiz_bind]
    refine Follows.bind (Follows.execute hknown htrue fun _ _ _ h _ _ => ⟨h, trivial⟩) fun _ => ?_
    exact follows_harmless i htrue (loadAttempt_readOnly _ _ _ _).writesOnly

theorem quiz_sound_follows (u : SaveUpsert) (call : QuizCall) : (soundness ι).Follows i
    (fun _ _ => True) (ofQuiz (Quizzes.handle u call)) (fun _ => True) := by
  have htrue := (soundness ι).stable_const i True
  by_cases hstart : ∃ id, call.request = .start id
  · obtain ⟨env, user, request⟩ := call
    obtain ⟨id, rfl⟩ := hstart
    change (soundness ι).Follows i _
      (ofQuiz (startAttempt env user id >>= fun a => pure (QuizReply.attempt a))) _
    rw [ofQuiz_bind]
    exact (startAttempt_keeps_sound i env user id).bind fun _ =>
      Follows.ret htrue fun _ _ => trivial
  · exact follows_harmless i htrue ((handle_issues u call).imp fun _ h =>
      issued_harmless h fun id hid => hstart ⟨id, hid⟩)

theorem handle_sound_follows (u : SaveUpsert) (call : LessonCall) :
    (soundness ι).Follows i (fun _ _ => True) (handle u call) (fun _ => True) := by
  have htrue := (soundness ι).stable_const i True
  cases call with
  | quiz call =>
    exact (quiz_sound_follows i u call).bind fun reply => Follows.ret htrue fun _ _ => trivial
  | live call =>
    have hlive : ((LiveSessions.handle call).relabel LessonStatement.live).WritesOnly
        fun l => ∀ s, l.keepsSound s :=
      WritesOnly.relabel (writesOnly_of_forall (fun _ _ => trivial) _)
    have hfollows : (soundness ι).Follows i (fun _ _ => True)
        ((LiveSessions.handle call).relabel LessonStatement.live) (fun _ => True) :=
      Follows.of_writesOnly (fun l w h => h w.state) hlive
    exact hfollows.bind fun reply => Follows.ret htrue fun _ _ => trivial

theorem sound_run [DecidableEq ι] (u : SaveUpsert) {s : LiveStore} (hs : Sound s.lib.school)
    (ms : List (Move ι LessonCall)) :
    Sound ((Pool.idle s : LessonPool ι).run (handle u) ms).world.state.lib.school := by
  have hstart : (soundness ι).Running (fun _ _ _ _ => True) (Pool.idle s : LessonPool ι) :=
    running_idle hs
  have hguarded : (Pool.idle s : LessonPool ι).Guarded (handle u) (fun _ => True)
      (soundness ι).guard ms :=
    Pool.guarded_of_forall (fun _ => trivial) (fun _ _ _ => trivial) _ _
  exact (running_run (fun i call _ => handle_sound_follows i u call) hstart hguarded).1

end Handlers

section Reopening
variable {env : Env} {db : Database} {teacher : CurrentUser} {id : Uuid}
variable {a : QuizAttemptRow} {d : QuizDeliveryRow} {v : QuizVersionRow}

/-- What lets a teacher reopen an attempt. Whether the delivery is due plays no part. -/
structure Reopenable (db : Database) (teacher : CurrentUser) (id : Uuid) (now : Time)
    (a : QuizAttemptRow) (d : QuizDeliveryRow) (v : QuizVersionRow) : Prop where
  stored : attemptDelivery? db id = some (a, d)
  version : version? db d.versionId = some v
  isTeacher : teacher.role.isTeacher = true
  access : teacherCanAccess db d.classroomId teacher.id = true
  unreleased : d.resultsReleasedAt = none
  live : LiveOpen db d a.studentId now

theorem reopenAttempt_refused : (reopenAttempt env teacher id).RefusedUnless
    (∃ a d v, Reopenable db teacher id (env.now 0) a d v) db := by
  unfold reopenAttempt
  refine refusedUnless_require_bind fun hteacher => ?_
  refine refusedUnless_queryRow_bind fun classroom hclassroom => ?_
  refine refusedUnless_requireTeacherAccess_bind fun haccess => ?_
  refine refusedUnless_queryRow_bind fun row hrow => ?_
  obtain ⟨⟨a, d⟩, had, hrow⟩ := Option.bind_eq_some_iff.mp hrow
  obtain ⟨v, hv, hcolumns⟩ := Option.bind_eq_some_iff.mp hrow
  cases hcolumns
  rw [had] at hclassroom
  cases hclassroom
  refine refusedUnless_require_bind fun hunreleased => ?_
  have hd := (attemptDelivery?_eq_some.mp had).2
  rw [← delivery?_id hd] at hd
  refine refusedUnless_activeLiveDeadline_bind hd fun _ hlive => ?_
  exact refusedUnless_of ⟨a, d, v, had, hv, hteacher, haccess, hunreleased, hlive⟩

def reopened (db : Database) (id : Uuid) (now : Time) (expires : Option Time)
    (entry : QuizAuditRow) : Database :=
  { db with
    quizAttempts := db.quizAttempts.update (fun a => a.id = id) (clearAttempt now expires)
      (clearAttempt_keeps now expires)
    quizAuditLog := db.quizAuditLog ++ [entry] }

theorem attemptDelivery?_reopened {now : Time} {expires : Option Time} {entry : QuizAuditRow}
    (had : attemptDelivery? db id = some (a, d)) :
    attemptDelivery? (reopened db id now expires entry) id =
      some (clearAttempt now expires a, d) := by
  obtain ⟨ha, hd⟩ := attemptDelivery?_eq_some.mp had
  refine attemptDelivery?_eq_some.mpr ⟨?_, hd⟩
  exact Table.find?_update_self (clearAttempt_keeps now expires) ha fun _ => rfl

theorem loadAttempt_teacher_succeeds {u : UserRow} (now : Time)
    (had : attemptDelivery? db id = some (a, d)) (hv : version? db d.versionId = some v)
    (haccess : teacherCanAccess db d.classroomId teacher.id = true)
    (hu : user? db a.studentId = some u) : (loadAttempt id teacher true now).Succeeds db := by
  obtain ⟨k, hk⟩ := classroom?_of_access haccess
  obtain ⟨delivery, hdelivery, hshows⟩ := exec_loadDelivery none
    (attemptDelivery?_eq_some.mp had).2 hv hk
  rw [← hshows.classroom] at haccess
  unfold loadAttempt
  refine succeeds_queryRow_bind (a := (a, d, u)) (by simp [had, hu]) ?_
  refine succeeds_bind hdelivery ?_
  refine succeeds_bind (exec_requireTeacherAccess haccess) (succeeds_query_bind ?_)
  obtain ⟨responses, hresponses⟩ := exec_loadResponses db id
    (d.resultsReleasedAt.isSome && a.submittedAt.isSome || true)
    (studentQuestions db delivery.versionId)
  exact succeeds_bind hresponses ⟨_, _, rfl⟩

theorem reopenAttempt_reopens (hs : Sound db)
    (h : Reopenable db teacher id (env.now 0) a d v) :
    ∃ reply liveEnd entry, (∀ e ∈ liveEnd, env.now 0 < e) ∧
      (reopenAttempt env teacher id).exec db = (.ok reply, reopened db id (env.now 0)
        (expiry (env.now 0) v.timeLimitMinutes d.dueAt liveEnd) entry) := by
  obtain ⟨ha, hd⟩ := attemptDelivery?_eq_some.mp h.stored
  obtain ⟨u, hu⟩ := Option.isSome_iff_exists.mp (hs.students a (Table.mem_of_find? ha).1)
  have hself : delivery? db d.id = some d := by rw [delivery?_id hd]; exact hd
  obtain ⟨liveEnd, hlive, hahead⟩ := exec_activeLiveDeadline hself h.live
  let entry := auditEntry teacher.id "attempt_reopened" none none (some id) (env.now 1)
  let expires := expiry (env.now 0) v.timeLimitMinutes d.dueAt liveEnd
  have hloads : (loadAttempt id teacher true (env.now 2)).Succeeds
      (reopened db id (env.now 0) expires entry) :=
    loadAttempt_teacher_succeeds _ (attemptDelivery?_reopened h.stored) h.version h.access hu
  obtain ⟨reply, db', hload⟩ := hloads
  have hsame : db' = reopened db id (env.now 0) expires entry := by
    rw [← exec_readOnly (loadAttempt_readOnly id teacher true (env.now 2))
      (reopened db id (env.now 0) expires entry), hload]
  rw [hsame] at hload
  refine ⟨reply, liveEnd, entry, hahead, ?_⟩
  unfold reopenAttempt
  rw [exec_bind_ok _ (by rw [requireTeacher, exec_require, if_pos h.isTeacher]),
    exec_bind_ok _ (by rw [attemptClassroom, exec_queryRow, h.stored]; rfl),
    exec_bind_ok _ (exec_requireTeacherAccess h.access),
    exec_bind_ok _ (exec_queryRow_some (a := (a, d, v)) (by simp [h.stored, h.version]))]
  dsimp only
  rw [exec_bind_ok _ (by rw [exec_require, if_pos h.unreleased]), exec_bind_ok _ hlive,
    exec_bind_ok _ (exec_execute rfl), exec_bind_ok _ (exec_execute rfl)]
  exact hload

theorem expiry_ahead {now : Time} {limit : Option Nat} {due liveEnd : Option Time}
    (hlimit : ∀ m ∈ limit, 0 < m) (hdue : ∀ t ∈ due, now < t) (hlive : ∀ t ∈ liveEnd, now < t) :
    ∀ t ∈ expiry now limit due liveEnd, now < t := by
  intro t ht
  obtain ⟨x, hx, rfl⟩ := List.mem_filterMap.mp (List.min?_mem (Option.mem_def.mp ht))
  simp only [List.mem_cons, List.not_mem_nil, or_false] at hx
  rcases hx with hx | hx | hx
  · cases limit with
    | none => cases hx
    | some m =>
      cases hx
      have hpos := hlimit m rfl
      have hminutes : 0 < (m : Int)*60000000000 := by omega
      exact Int.lt_add_of_pos_right now hminutes
  · exact hdue t hx.symm
  · exact hlive t hx.symm

theorem ensureAttemptWritable_due {sid : Uuid} {now : Time} {u : Unit} {db' : Database}
    (had : attemptDelivery? db id = some (a, d))
    (h : (ensureAttemptWritable id sid now).exec db = (.ok u, db')) : ∀ t ∈ d.dueAt, now < t := by
  have hrefused : (ensureAttemptWritable id sid now >>= fun _ => pure ()).RefusedUnless
      (∀ t ∈ d.dueAt, now < t) db :=
    refusedUnless_ensureAttemptWritable_bind fun a' d' had' hwritable => by
      rw [had] at had'
      cases had'
      exact refusedUnless_of hwritable.due
  rcases hrefused with hdue | ⟨e, he⟩
  · exact hdue
  · rw [exec_bind_ok _ h] at he
    cases he

/-- The student may write to a reopened attempt if and only if its delivery is not due. -/
theorem reopened_writable_iff (hs : Sound db) (h : Reopenable db teacher id (env.now 0) a d v)
    {liveEnd : Option Time} (hahead : ∀ e ∈ liveEnd, env.now 0 < e) (entry : QuizAuditRow) :
    (ensureAttemptWritable id a.studentId (env.now 0)).exec
        (reopened db id (env.now 0) (expiry (env.now 0) v.timeLimitMinutes d.dueAt liveEnd) entry) =
      (.ok (), reopened db id (env.now 0)
        (expiry (env.now 0) v.timeLimitMinutes d.dueAt liveEnd) entry) ↔
      ∀ t ∈ d.dueAt, env.now 0 < t := by
  let expires := expiry (env.now 0) v.timeLimitMinutes d.dueAt liveEnd
  have had : attemptDelivery? (reopened db id (env.now 0) expires entry) id =
      some (clearAttempt (env.now 0) expires a, d) := attemptDelivery?_reopened h.stored
  constructor
  · exact ensureAttemptWritable_due had
  · intro hdue
    have hlimit := hs.limits v (Table.mem_of_find? h.version).1
    exact exec_ensureAttemptWritable had
      ⟨rfl, rfl, h.unreleased, h.live, expiry_ahead hlimit hdue hahead, hdue⟩

end Reopening

section Runs
variable {ι : Type} [DecidableEq ι]

/-- In every state that quiz and live-session requests reach, a reopening that goes
through gives the student an attempt to write to if and only if the delivery is not yet
due, and a reopening that is refused changes nothing. -/
theorem reopened_attempt_works_iff (u : SaveUpsert) (s : LiveStore) (hs : Sound s.lib.school)
    (ms : List (Move ι LessonCall)) (env : Env) (teacher : CurrentUser) (id : Uuid)
    (db : Database)
    (hdb : db = ((Pool.idle s : LessonPool ι).run (handle u) ms).world.state.lib.school) :
    (∀ reply db', (reopenAttempt env teacher id).exec db = (.ok reply, db') →
      ∃ a d, attemptDelivery? db id = some (a, d) ∧
        ((ensureAttemptWritable id a.studentId (env.now 0)).exec db' = (.ok (), db') ↔
          ∀ t ∈ d.dueAt, env.now 0 < t)) ∧
    ∀ e db', (reopenAttempt env teacher id).exec db = (.error e, db') → db' = db := by
  have hsound : Sound db := hdb ▸ sound_run u hs ms
  have hrefused : (reopenAttempt env teacher id).RefusedUnless
      (∃ a d v, Reopenable db teacher id (env.now 0) a d v) db := reopenAttempt_refused
  rcases hrefused with ⟨a, d, v, h⟩ | ⟨e, he⟩
  · obtain ⟨reply, liveEnd, entry, hahead, hexec⟩ := reopenAttempt_reopens hsound h
    rw [hexec]
    constructor
    · intro _ _ hok
      cases hok
      exact ⟨a, d, h.stored, reopened_writable_iff hsound h hahead entry⟩
    · intro _ _ herror
      cases herror
  · rw [he]
    constructor
    · intro _ _ hok
      cases hok
    · intro _ _ herror
      cases herror
      rfl

end Runs

/-! A quiz that is due at time 1000, as homework that the student has handed in. -/

section Homework

def sampleHomework : List (Move Nat LessonCall) :=
  alone 0 (.quiz ⟨sampleEnv 10, sampleTeacher, .deliver 4 ⟨.homework, none, none, some 1000⟩⟩) ++
  alone 1 (.quiz ⟨sampleEnv 40, sampleStudent, .start 1000⟩) ++
  alone 2 (.quiz ⟨sampleEnv 50, sampleStudent, .submit 4000⟩)

def handedIn : Database := ((Pool.idle sampleQuiz : LessonPool Nat).run (handle .asWritten)
  sampleHomework).world.state.lib.school

theorem sampleQuiz_sound : Sound sampleQuiz.lib.school where
  students a ha := by cases ha
  enrolments e he := by
    obtain rfl := List.mem_singleton.mp he
    decide
  limits v hv m hm := by
    obtain rfl := List.mem_singleton.mp hv
    cases hm
    decide

theorem reopened_attempt_works_iff_homework :
    ((reopenAttempt (sampleEnv 500) sampleTeacher 4000).exec handedIn).1.isOk = true ∧
    (∀ reply db', (reopenAttempt (sampleEnv 500) sampleTeacher 4000).exec handedIn =
        (.ok reply, db') →
      ∃ a d, attemptDelivery? handedIn 4000 = some (a, d) ∧
        ((ensureAttemptWritable 4000 a.studentId ((sampleEnv 500).now 0)).exec db' = (.ok (), db') ↔
          ∀ t ∈ d.dueAt, (sampleEnv 500).now 0 < t)) ∧
    ∀ e db', (reopenAttempt (sampleEnv 500) sampleTeacher 4000).exec handedIn = (.error e, db') →
      db' = handedIn :=
  ⟨by decide +kernel, reopened_attempt_works_iff .asWritten sampleQuiz sampleQuiz_sound
    sampleHomework (sampleEnv 500) sampleTeacher 4000 handedIn rfl⟩

/-- After the due time the submission is wiped, and the student cannot hand in again. -/
theorem reopened_attempt_not_writable :
    ((attempt? handedIn 4000).map fun a => a.submittedAt) = some (some 51) ∧
    ((reopenAttempt (sampleEnv 2000) sampleTeacher 4000).exec handedIn).1.isOk = true ∧
    ((attempt? ((reopenAttempt (sampleEnv 2000) sampleTeacher 4000).exec handedIn).2 4000).map
      fun a => a.submittedAt) = some none ∧
    ((ensureAttemptWritable 4000 sampleStudent.id ((sampleEnv 2000).now 0)).exec
      ((reopenAttempt (sampleEnv 2000) sampleTeacher 4000).exec handedIn).2).1 =
        .error .conflict := by
  decide +kernel

end Homework

end Cinder.Lessons
