import Cinder.LiveSessions.LiveChecks
import Cinder.Quizzes.AttemptChecks
import Cinder.Submissions.SubmissionHandlers
set_option autoImplicit false

/-!
The requests by which students write into a classroom, from the three route
files, and which of them check that the student is enrolled in it and that it
is not archived.
-/

namespace Cinder.StudentWrites
open Cinder.Host Cinder.Storage Cinder.Programs Cinder.Programs.Program
open Cinder.LiveSessions Cinder.Quizzes Cinder.Submissions

inductive StudentStatement where
  | submission (l : SubmissionStatement)
  | quiz (l : QuizStatement)
  | live (l : LiveStatement)

def StudentStatement.run : StudentStatement → Database → Except HostError Database
  | .submission l, db => l.run db
  | .quiz l, db => l.run db
  | .live l, db => l.run db

instance : Engine Database StudentStatement HostError := ⟨StudentStatement.run⟩

abbrev StudentProgram := Program Database StudentStatement HostError

inductive StudentRequest where
  | submitWork (assignment : Uuid) (req : SubmitWorkRequest)
  | withdrawWork (assignment : Uuid)
  | join (req : JoinLiveSessionRequest)
  | joinById (session : Uuid)
  | acknowledgeTask (session : Uuid) (req : AcknowledgeLiveSessionTaskRequest)
  | submitResult (session : Uuid) (req : SubmitLiveSessionResultRequest)
  | startAttempt (delivery : Uuid)
  | saveResponse (attempt question : Uuid) (answer : Json)
  | submitAttempt (attempt : Uuid)

/-- A request with its caller and its readings of the clock and of fresh ids. -/
structure StudentCall where
  env : Env
  user : CurrentUser
  request : StudentRequest

section Requests
variable {α : Type}

def ofSubmission (p : SubmissionProgram α) : StudentProgram Unit :=
  (p >>= fun _ => pure ()).relabel .submission

def ofQuiz (p : QuizProgram α) : StudentProgram Unit := (p >>= fun _ => pure ()).relabel .quiz

def ofLive (p : LiveProgram α) : StudentProgram Unit := (p >>= fun _ => pure ()).relabel .live

end Requests

def handle (jsonBytes : Json → Nat) (c : StudentCall) : StudentProgram Unit :=
  match c.request with
  | .submitWork id req => ofSubmission (submitWork c.env jsonBytes c.user id req)
  | .withdrawWork id => ofSubmission (withdrawWork c.env c.user id)
  | .join req => ofLive (join c.env c.user req)
  | .joinById id => ofLive (joinById c.env c.user id)
  | .acknowledgeTask id req => ofLive (acknowledgeTask c.env c.user id req)
  | .submitResult id req => ofLive (submitResult c.env c.user id req)
  | .startAttempt id => ofQuiz (startAttempt c.env c.user id)
  | .saveResponse id qid answer => ofQuiz (saveResponse c.env .asWritten c.user id qid answer)
  | .submitAttempt id => ofQuiz (submitAttempt c.env c.user id)

section Conditions
variable (db : Database)

def classroomOf : StudentRequest → Option Uuid
  | .submitWork id _ | .withdrawWork id => (assignment? db id).map fun a => a.classroomId
  | .join req => (sessionOfCode db req).map fun s => s.classroomId
  | .joinById id | .acknowledgeTask id _ | .submitResult id _ =>
    (liveSession? db id).map fun s => s.classroomId
  | .startAttempt id => (delivery? db id).map fun d => d.classroomId
  | .saveResponse id _ _ | .submitAttempt id =>
    (attemptDelivery? db id).map fun x => x.2.classroomId

def MayWrite (c : StudentCall) : Prop :=
  ∃ classroom ∈ classroomOf db c.request, activelyEnrolled db classroom c.user.id = true

instance (c : StudentCall) : Decidable (MayWrite db c) :=
  inferInstanceAs (Decidable (∃ classroom ∈ classroomOf db c.request, _))

/-- The request passes every check that its handler makes, and the handler is
one that can do without the enrolment or the active classroom: three check both,
and saving an answer stores nothing. -/
def LetThrough (c : StudentCall) : Prop :=
  c.user.role.isTeacher = false ∧ match c.request with
    | .submitWork .. | .join _ | .submitResult .. | .saveResponse .. => False
    | .withdrawWork id => ∃ s ∈ studentSubmission? db id c.user.id,
      s.status ≠ .graded ∧ s.status ≠ .withdrawn
    | .joinById id => ∃ s ∈ liveSession? db id, OpenTo db s c.user.id (c.env.now 1)
    | .acknowledgeTask id req =>
      (∃ s ∈ liveSession? db id, OpenTo db s c.user.id (c.env.now 1)) ∧
        joined db id c.user.id = true ∧ latestRevision db id = some req.revision
    | .startAttempt id =>
      (∃ d ∈ delivery? db id, Startable db d c.user.id (c.env.now 0)) ∧
        AttemptStorable db id c.user.id (c.env.uuid 0)
    | .submitAttempt id =>
      (∃ x ∈ attemptDelivery? db id, Writable db x.1 x.2 c.user.id (c.env.now 0)) ∧
        missingRequired db id = 0

structure References : Prop where
  session : ∀ s ∈ db.liveModuleSessions.rows, (classroom? db s.classroomId).isSome = true
  version : ∀ d ∈ db.quizDeliveries.rows, (version? db d.versionId).isSome = true
  delivery : ∀ d ∈ db.quizDeliveries.rows, (classroom? db d.classroomId).isSome = true

end Conditions

section Submissions
variable {env : Env} {db : Database} {student : CurrentUser} {id : Uuid}

/-- Handing in work checks everything: the assignment is found only in a
classroom that is not archived. -/
theorem submitWork_refused (jsonBytes : Json → Nat) (req : SubmitWorkRequest) :
    (submitWork env jsonBytes student id req).RefusedUnless (∃ a ∈ assignment? db id,
      activelyEnrolled db a.classroomId student.id = true) db := by
  unfold submitWork
  refine refusedUnless_requireStudent_bind fun _ => ?_
  refine refusedUnless_bind (readOnly_ofExcept _) fun _ _ => ?_
  refine refusedUnless_queryRow_bind fun a hrow => ?_
  obtain ⟨a', ha, hrow⟩ := Option.bind_eq_some_iff.mp hrow
  obtain ⟨k, hk, hrow⟩ := Option.bind_eq_some_iff.mp hrow
  split at hrow
  · rename_i hactive
    cases hrow
    refine refusedUnless_require_bind fun _ => ?_
    refine refusedUnless_assertEnrolled_bind fun henrolled => refusedUnless_of ⟨a, ha, ?_⟩
    have harchived := (Bool.and_eq_true_iff.mp hactive).2
    simp [activelyEnrolled, henrolled, hk, harchived]
  · cases hrow

theorem studentSubmission?_unique {s r : SubmissionRow} {sid : Uuid}
    (hs : studentSubmission? db id sid = some s) (hr : r ∈ db.submissions.rows)
    (hassignment : r.assignmentId = id) (hstudent : r.studentId = sid) : r = s := by
  obtain ⟨hmem, hkey⟩ := Table.mem_of_find? hs
  simp only [Bool.and_eq_true, decide_eq_true_eq] at hkey
  exact Table.eq_of_clash hr hmem (by simp [Keyed.clash, hassignment, hstudent, hkey.1, hkey.2])

theorem run_withdrawWork_withdrawn {s : SubmissionRow} {sid : Uuid} {now : Time}
    (hs : studentSubmission? db id sid = some s) (hstatus : s.status = .withdrawn) :
    (SubmissionStatement.withdrawWork id sid now).run db = .ok db := by
  have hnone : ∀ r ∈ db.submissions.rows, (r.assignmentId = id && r.studentId = sid &&
      r.status ≠ .withdrawn : Bool) = false := by
    intro r hr
    by_contra hkey
    simp only [Bool.not_eq_false, Bool.and_eq_true, decide_eq_true_eq] at hkey
    have hsame := studentSubmission?_unique hs hr hkey.1.1 hkey.1.2
    exact hkey.2 (hsame ▸ hstatus)
  have hsame : db.submissions.update _ (withdraw now) (withdraw_keeps now) = db.submissions :=
    Table.update_of_none hnone
  rw [SubmissionStatement.run, hsame]

theorem withdrawWork_refused :
    (withdrawWork env student id).RefusedUnless (student.role.isTeacher = false ∧
      ∃ s ∈ studentSubmission? db id student.id,
        s.status ≠ .graded ∧ s.status ≠ .withdrawn) db := by
  unfold withdrawWork
  refine refusedUnless_requireStudent_bind fun hstudent => ?_
  refine refusedUnless_executeReturning_bind rfl ?_
  cases hs : studentSubmission? db id student.id with
  | none =>
    simp only [existingSubmission, hs, Option.map_none]
    exact refusedUnless_fail _
  | some s =>
    simp only [existingSubmission, hs, Option.map_some]
    refine refusedUnless_require_bind fun hgraded => ?_
    by_cases hstatus : s.status = .withdrawn
    · refine refusedUnless_executeReturning_bind (run_withdrawWork_withdrawn hs hstatus) ?_
      refine refusedUnless_require fun hchanged => ?_
      simp [hs, hstatus] at hchanged
    · exact refusedUnless_of ⟨hstudent, s, rfl, hgraded, hstatus⟩

theorem withdrawWork_succeeds {s : SubmissionRow} (hstudent : student.role.isTeacher = false)
    (hs : studentSubmission? db id student.id = some s) (hgraded : s.status ≠ .graded)
    (hwithdrawn : s.status ≠ .withdrawn) : (withdrawWork env student id).Succeeds db := by
  unfold withdrawWork
  refine succeeds_requireStudent_bind hstudent (succeeds_executeReturning_bind rfl ?_)
  simp only [existingSubmission, hs, Option.map_some]
  refine succeeds_require_bind hgraded (succeeds_executeReturning_bind rfl ?_)
  exact ⟨(), _, by rw [exec_require, if_pos (by simp [hs, hwithdrawn])]⟩

end Submissions

section Requests
variable {α : Type} {c : Prop} {db : Database}

theorem ofSubmission_iff {p : SubmissionProgram α} :
    (ofSubmission p).RefusedUnless c db ↔ p.RefusedUnless c db :=
  refusedUnless_relabel_iff (h := StudentStatement.submission) fun _ _ => rfl

theorem ofQuiz_iff {p : QuizProgram α} :
    (ofQuiz p).RefusedUnless c db ↔ p.RefusedUnless c db :=
  refusedUnless_relabel_iff (h := StudentStatement.quiz) fun _ _ => rfl

theorem ofLive_iff {p : LiveProgram α} :
    (ofLive p).RefusedUnless c db ↔ p.RefusedUnless c db :=
  refusedUnless_relabel_iff (h := StudentStatement.live) fun _ _ => rfl

theorem References.session? (h : References db) {id : Uuid} {s : LiveSessionRow}
    (hs : liveSession? db id = some s) : ∃ k, classroom? db s.classroomId = some k :=
  Option.isSome_iff_exists.mp (h.session s (Table.mem_of_find? hs).1)

theorem References.delivery? (h : References db) {id : Uuid} {d : QuizDeliveryRow}
    (hd : Quizzes.delivery? db id = some d) :
    (∃ v, version? db d.versionId = some v) ∧ ∃ k, classroom? db d.classroomId = some k :=
  ⟨Option.isSome_iff_exists.mp (h.version d (Table.mem_of_find? hd).1),
    Option.isSome_iff_exists.mp (h.delivery d (Table.mem_of_find? hd).1)⟩

theorem refusedUnless_iff_of_checks {p : StudentProgram Unit} {l : Prop}
    (h : p.RefusedUnless c db) (hl : ¬l) : p.RefusedUnless c db ↔ ¬(l ∧ ¬c) :=
  ⟨fun _ hlc => hl hlc.1, fun _ => h⟩

end Requests

/-- A request of a caller who may not write into the classroom is refused, and
changes nothing, unless every check of its handler passes and the handler is one
of those that lack a check. -/
theorem student_writes_need_enrolment (jsonBytes : Json → Nat) (db : Database) (c : StudentCall)
    (hdb : References db) (hcaller : (user? db c.user.id).isSome = true) :
    (handle jsonBytes c).RefusedUnless (MayWrite db c) db ↔
      ¬(LetThrough db c ∧ ¬MayWrite db c) := by
  obtain ⟨env, user, request⟩ := c
  obtain ⟨u, hu⟩ := Option.isSome_iff_exists.mp hcaller
  cases request with
  | submitWork id req =>
    refine refusedUnless_iff_of_checks (ofSubmission_iff.mpr ?_) fun h => h.2
    refine (submitWork_refused jsonBytes req).imp fun ⟨a, ha, hactive⟩ => ?_
    exact ⟨a.classroomId, Option.map_eq_some_iff.mpr ⟨a, ha, rfl⟩, hactive⟩
  | withdrawWork id =>
    refine ofSubmission_iff.trans (refusedUnless_iff withdrawWork_refused ?_)
    rintro ⟨hstudent, s, hs, hgraded, hwithdrawn⟩
    exact withdrawWork_succeeds hstudent hs hgraded hwithdrawn
  | join req =>
    refine refusedUnless_iff_of_checks (ofLive_iff.mpr ?_) fun h => h.2
    refine (join_refused req).imp fun ⟨s, hs, hactive⟩ => ?_
    exact ⟨s.classroomId, Option.map_eq_some_iff.mpr ⟨s, hs, rfl⟩, hactive⟩
  | joinById id =>
    refine ofLive_iff.trans (refusedUnless_iff joinById_refused ?_)
    rintro ⟨hstudent, s, hs, hopen⟩
    obtain ⟨k, hk⟩ := hdb.session? hs
    exact joinById_succeeds hstudent hs hk hopen
  | acknowledgeTask id req =>
    refine ofLive_iff.trans (refusedUnless_iff (acknowledgeTask_refused req) ?_)
    rintro ⟨hstudent, ⟨s, hs, hopen⟩, hjoined, hlatest⟩
    obtain ⟨k, hk⟩ := hdb.session? hs
    exact acknowledgeTask_succeeds hstudent hs hk hopen hjoined hlatest
  | submitResult id req =>
    refine refusedUnless_iff_of_checks (ofLive_iff.mpr ?_) fun h => h.2
    refine (submitResult_refused req).imp fun ⟨s, hs, hactive⟩ => ?_
    exact ⟨s.classroomId, Option.map_eq_some_iff.mpr ⟨s, hs, rfl⟩, hactive⟩
  | startAttempt id =>
    refine ofQuiz_iff.trans (refusedUnless_iff startAttempt_refused ?_)
    rintro ⟨hstudent, ⟨d, hd, hstartable⟩, hstorable⟩
    obtain ⟨⟨v, hv⟩, k, hk⟩ := hdb.delivery? hd
    exact startAttempt_succeeds hstudent hd hv hk hu hstartable hstorable
  | saveResponse id qid answer =>
    refine refusedUnless_iff_of_checks (ofQuiz_iff.mpr ?_) fun h => h.2
    exact (saveResponse_refused qid answer).imp False.elim
  | submitAttempt id =>
    refine ofQuiz_iff.trans (refusedUnless_iff submitAttempt_refused ?_)
    rintro ⟨hstudent, ⟨⟨a, d⟩, had, hwritable⟩, hmissing⟩
    obtain ⟨⟨v, hv⟩, k, hk⟩ := hdb.delivery? (attemptDelivery?_eq_some.mp had).2
    exact submitAttempt_succeeds hstudent had hv hk hu hwritable hmissing

/-- The classroom has been archived while its session runs and its quiz is open. -/
def archivedClassroom : Database :=
  { sampleWork with
    classrooms := .single { id := 3, name := "Maths", ownerTeacherId := 2, archivedAt := some 5 }
    liveModuleSessions := .single
      { id := 9, classroomId := 3, endsAt := 100, joinCode := "ABCDEFGHJK" }
    liveModuleParticipants := .single { sessionId := 9, studentId := 1 }
    liveSessionTasks := .single
      { id := 10, sessionId := 9, revision := 1, kind := .instruction, targetId := none
        title := "Read", instructions := "", createdAt := 2 }
    quizVersions := .single
      { id := 5, quizId := 4, versionNumber := 1, title := "Primes", instructions := ""
        timeLimitMinutes := none, totalPoints := 2, publishedAt := 0 }
    quizDeliveries := ⟨[sampleDelivery, { sampleDelivery with id := 11 }], by decide +kernel⟩
    quizAttempts := .single sampleAttempt }

def studentCall (request : StudentRequest) : StudentCall := ⟨sampleEnv 10, sampleStudent, request⟩

theorem student_writes_need_enrolment_sample :
    let handed := studentCall (.submitWork 4 ⟨sampleDocument, "More.", none⟩)
    (handle (fun _ => 27) handed).RefusedUnless (MayWrite archivedClassroom handed)
        archivedClassroom ↔
      ¬(LetThrough archivedClassroom handed ∧ ¬MayWrite archivedClassroom handed) :=
  student_writes_need_enrolment (fun _ => 27) archivedClassroom _
    ⟨by decide +kernel, by decide +kernel, by decide +kernel⟩ (by decide +kernel)

def uncheckedCalls : List StudentCall :=
  [.withdrawWork 4, .joinById 9, .acknowledgeTask 9 ⟨1, .opened⟩, .startAttempt 11,
    .submitAttempt 8].map studentCall

/-- All of them go through in the archived classroom. -/
theorem archived_classroom_is_written : uncheckedCalls.Forall fun c =>
    ¬(handle (fun _ => 27) c).RefusedUnless (MayWrite archivedClassroom c) archivedClassroom := by
  have hok : ∀ c ∈ uncheckedCalls, ¬MayWrite archivedClassroom c ∧
      ((handle (fun _ => 27) c).exec archivedClassroom).1.isOk = true := by
    decide +kernel
  exact List.forall_iff_forall_mem.mpr fun c hc => not_refusedUnless (hok c hc).1 (hok c hc).2

end Cinder.StudentWrites
